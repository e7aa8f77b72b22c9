/-
# Linear memories

A memory is an array of bytes, a whole number of pages long.  It is read and written as integers of
8, 16, 32 or 64 bits, lowest byte first, as floats, and in ranges.  An access that leaves the memory
traps before anything is written.
-/
import WasmAot.Host.Span
import WasmAot.Host.Trap
import WasmAot.Ieee.Format
import WasmAot.LittleEndian

namespace WasmAot.Host

/-- The number of bytes of a page. -/
def pageSize : Nat := 65536

/-- The largest number of pages that 32 bits can address. -/
def addressablePages : Nat := 65536

/-- A linear memory. -/
structure Memory where
  bytes : Array UInt8
  /-- the number of pages beyond which the memory does not grow -/
  maxPages : Nat

namespace Memory

/-- A memory of zeroed pages. -/
def new (minPages : Nat) (maxPages : Option Nat) : Except LinkError Memory :=
  if minPages ≤ addressablePages then
    .ok {
      bytes := Array.replicate (minPages * pageSize) 0
      maxPages := min (maxPages.getD addressablePages) addressablePages }
  else .error (.tooManyPages minPages)

/-- The number of pages. -/
def pages (m : Memory) : Nat :=
  m.bytes.size / pageSize

/-- Adds zeroed pages.  The answer is the number of pages before, or -1 and the memory stays. -/
def grow (delta : Nat) : EStateM Trap Memory Int := do
  let m ← get
  if m.maxPages < m.pages + delta then return -1
  else
    set { m with bytes := m.bytes ++ Array.replicate (delta * pageSize) 0 }
    return m.pages

/-! ### Ranges -/

/-- The bytes of a range. -/
def read (m : Memory) (offset len : Nat) : Except Trap (Array UInt8) := do
  checkRange .outOfBounds m.bytes offset len
  .ok (slice m.bytes offset len)

/-- Replaces the bytes of a range. -/
def write (data : Array UInt8) (offset : Nat) : EStateM Trap Memory Unit := do
  orTrap (checkRange .outOfBounds (← get).bytes offset data.size)
  modify fun m => { m with bytes := splice m.bytes offset data }

/-- Sets all bytes of a range to one value. -/
def fill (len : Nat) (value : UInt8) (offset : Nat) : EStateM Trap Memory Unit := do
  orTrap (checkRange .outOfBounds (← get).bytes offset len)
  modify fun m => { m with bytes := splice m.bytes offset (Array.replicate len value) }

/-- Copies a range of a data segment into the memory. -/
def init (segment : Array UInt8) (src dst len : Nat) : EStateM Trap Memory Unit := do
  orTrap (checkRange .outOfBounds segment src len)
  orTrap (checkRange .outOfBounds (← get).bytes dst len)
  modify fun m => { m with bytes := splice m.bytes dst (slice segment src len) }

/-- Copies a range inside the memory; what is read is what was there before. -/
def copy (src dst len : Nat) : EStateM Trap Memory Unit := do
  orTrap (checkRange .outOfBounds (← get).bytes src len)
  orTrap (checkRange .outOfBounds (← get).bytes dst len)
  modify fun m => { m with bytes := splice m.bytes dst (slice m.bytes src len) }

/-! ### Numbers -/

/-- The number of bytes of an integer access. -/
def accessWidth (bits : Nat) : Except Trap Nat :=
  if bits = 8 || bits = 16 || bits = 32 || bits = 64 then .ok (bits / 8)
  else .error .valueTypeMismatch

/-- Loads an integer and extends it to 64 bits, with its sign or with zeros.  The sign is that of the
integer at the upper end of a word, and comes down with it. -/
def load (m : Memory) (offset bits : Nat) (signed : Bool) : Except Trap (BitVec 64) := do
  let width ← accessWidth bits
  let found ← m.read offset width
  let word := BitVec.ofNat 64 (LittleEndian.decode found.toList)
  let shift := 64 - bits
  .ok (if signed then (word <<< shift).sshiftRight shift else word)

/-- Stores the low bits of an integer. -/
def store (value : BitVec 64) (offset bits : Nat) : EStateM Trap Memory Unit := do
  let width ← orTrap (accessWidth bits)
  write (LittleEndian.encode width value.toNat).toArray offset

/-- Loads a float and widens it to 64 bits. -/
def loadFloat (m : Memory) (offset bits : Nat) : Except Trap (BitVec 64) :=
  match bits with
  | 32 => do
    let pattern ← m.load offset 32 false
    .ok (BitVec.ofNat 64 (Ieee.single.convert Ieee.double pattern.toNat))
  | 64 => m.load offset 64 false
  | _ => .error .valueTypeMismatch

/-- Stores a float, narrowed if need be. -/
def storeFloat (value : BitVec 64) (offset bits : Nat) : EStateM Trap Memory Unit :=
  match bits with
  | 32 => store (BitVec.ofNat 64 (Ieee.double.convert Ieee.single value.toNat)) offset 32
  | 64 => store value offset 64
  | _ => throw .valueTypeMismatch

end Memory

end WasmAot.Host
