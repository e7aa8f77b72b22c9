/-
# LEB128 integers

An integer is a sequence of bytes with seven bits each, lowest first, of which all but the last have
their high bit set.  A reader for integers of some width takes no more bytes than the width needs,
and rejects a value that does not fit; superfluous leading groups within that bound are accepted.
What is read is a word of 64 bits: a reader for a larger width keeps the low bits.
-/
import WasmAot.Binary.Cursor

namespace WasmAot.Binary

/-- The largest number of bytes of an integer of the given width. -/
def lebBytes (bits : Nat) : Nat :=
  (bits + 6) / 7

/-- The seven bits that a byte contributes. -/
def lebGroup (b : UInt8) : Nat :=
  b.toNat % 128

/-- Another byte follows. -/
def lebContinues (b : UInt8) : Bool :=
  128 ≤ b.toNat

/-- The bits of a word. -/
def wordBits : Nat := 64

/-- Reads the bytes of an unsigned integer.  `room` more bytes may come, `shift` bits are known, and
`value` is their value.  A value out of range is noticed at once. -/
def unsignedFrom (start bits : Nat) : (room shift value : Nat) → Decoder Nat
  | 0, _, _ => lexFault start .integerOverflow
  | room + 1, shift, value => do
    let b ← byte
    let value := value + lebGroup b <<< shift
    if 1 <<< bits ≤ value then lexFault start .integerOverflow
    else if lebContinues b then unsignedFrom start bits room (shift + 7) value
    else return value % (1 <<< wordBits)

/-- An unsigned integer of at most `bits` bits. -/
def unsigned (bits : Nat) : Decoder Nat := do
  unsignedFrom (← position) bits (lebBytes bits) 0 0

/-- The value of `n` as a two's-complement number of `width` bits. -/
def signedValue (width n : Nat) : Int :=
  if 2 * n < 1 <<< width then n else (n : Int) - (1 <<< width : Nat)

/-- The integer fits in a signed integer of `bits` bits. -/
def fitsSigned (bits : Nat) (v : Int) : Bool :=
  -(1 <<< (bits - 1) : Nat) ≤ v && v < (1 <<< (bits - 1) : Nat)

/-- Reads the bytes of a signed integer; the range is checked at the last byte. -/
def signedFrom (start bits : Nat) : (room shift value : Nat) → Decoder Int
  | 0, _, _ => lexFault start .integerOverflow
  | room + 1, shift, value => do
    let b ← byte
    let value := value + lebGroup b <<< shift
    if lebContinues b then signedFrom start bits room (shift + 7) value
    else
      let v := signedValue (shift + 7) value
      if wordBits < bits then return v.bmod (1 <<< wordBits)
      else if fitsSigned bits v then return v
      else lexFault start .integerOverflow

/-- A signed integer of at most `bits` bits. -/
def signed (bits : Nat) : Decoder Int := do
  signedFrom (← position) bits (lebBytes bits) 0 0

/-- An index, count or size. -/
def u32 : Decoder Nat :=
  unsigned 32

/-- A word of 32 bits. -/
def i32 : Decoder (BitVec 32) := do
  return BitVec.ofInt 32 (← signed 32)

/-- A word of 64 bits. -/
def i64 : Decoder (BitVec 64) := do
  return BitVec.ofInt 64 (← signed 64)

/-- A name: its length in bytes, then the bytes, which have to be UTF-8. -/
def name : Decoder String := do
  let length ← u32
  let start ← position
  let bytes ← take length
  match String.fromUTF8? bytes.toByteArray with
  | some s => return s
  | none => lexFault start .malformedUtf8

/-- A vector: its length, then that many items.  Every item takes at least one byte, so a length
beyond what is left of the input is refused before the first of them is read. -/
def vector {α : Type} (item : Decoder α) : Decoder (List α) := do
  let length ← u32
  if (← get).remaining < length then unexpectedEnd
  else repeated item length

/-- A size, then a body that reads exactly that many bytes. -/
def sizePrefixed {α : Type} (body : Decoder α) : Decoder α := do
  exactly (← u32) body

end WasmAot.Binary
