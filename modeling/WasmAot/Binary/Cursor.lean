/-
# Reading bytes

A decoder reads from a cursor: the bytes still to come, and how many came before.  It ends with a
value or an error, and in both cases with the cursor where reading stopped, so that a position after
a failure can be told.  The readers here take single bytes, runs of bytes, names, vectors and bodies
of a declared size.
-/
import WasmAot.Error
import WasmAot.LittleEndian

namespace WasmAot.Binary

/-- A place in a sequence of bytes. -/
structure Cursor where
  /-- number of bytes already read -/
  offset : Nat
  /-- the bytes still to come -/
  rest : List UInt8
  deriving DecidableEq

/-- The place before the first byte. -/
def Cursor.start (bytes : List UInt8) : Cursor :=
  { offset := 0, rest := bytes }

/-- How many bytes are still to come. -/
def Cursor.remaining (c : Cursor) : Nat :=
  c.rest.length

/-- The place `n` bytes further on. -/
def Cursor.advance (c : Cursor) (n : Nat) : Cursor :=
  { offset := c.offset + n, rest := c.rest.drop n }

/-- A reader of one item. -/
abbrev Decoder := EStateM Error Cursor

/-- The offset of the next byte. -/
def position : Decoder Nat := do
  return (← get).offset

/-- Fails with a fault of the token at the given offset. -/
def lexFault {σ α : Type} (offset : Nat) (fault : LexFault) : EStateM Error σ α :=
  throw (.lexing offset fault)

/-- Fails with a fault of the structure at the given offset. -/
def parseFault {σ α : Type} (offset : Nat) (fault : ParseFault) : EStateM Error σ α :=
  throw (.parsing offset fault)

/-- Fails because there is nothing left to read. -/
def unexpectedEnd {α : Type} : Decoder α := do
  lexFault (← position) .unexpectedEnd

/-- The next byte, which stays in place. -/
def peek : Decoder UInt8 := do
  match (← get).rest with
  | [] => unexpectedEnd
  | b :: _ => return b

/-- The next byte. -/
def byte : Decoder UInt8 := do
  let c ← get
  match c.rest with
  | [] => unexpectedEnd
  | b :: rest =>
    set { offset := c.offset + 1, rest : Cursor }
    return b

/-- The next `n` bytes; none of them is read if there are fewer. -/
def take (n : Nat) : Decoder (List UInt8) := do
  let c ← get
  if n ≤ c.remaining then
    set (c.advance n)
    return c.rest.take n
  else unexpectedEnd

/-- Passes over `n` bytes. -/
def skip (n : Nat) : Decoder Unit := do
  let _ ← take n

/-- The bit pattern of a float of `width` bytes. -/
def floatBits (width : Nat) : Decoder Nat := do
  return LittleEndian.decode (← take width)

/-- Runs a decoder `n` times and collects what it reads. -/
def repeated {α : Type} (item : Decoder α) : Nat → Decoder (List α)
  | 0 => return []
  | n + 1 => do
    let a ← item
    let rest ← repeated item n
    return a :: rest

/-- Runs a body that has to read exactly `size` bytes.  `view` finds the cursor in the state. -/
def exactlyOn {σ α : Type} (view : σ → Cursor) (size : Nat) (body : EStateM Error σ α) :
    EStateM Error σ α := do
  let start := view (← get)
  if start.remaining < size then lexFault start.offset .unexpectedEnd
  else
    let a ← body
    let consumed := (view (← get)).offset - start.offset
    if consumed = size then return a
    else parseFault start.offset (.sizeMismatch size consumed)

/-- Runs a decoder that has to read exactly `size` bytes. -/
def exactly {α : Type} (size : Nat) (body : Decoder α) : Decoder α :=
  exactlyOn id size body

end WasmAot.Binary
