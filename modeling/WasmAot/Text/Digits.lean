/-
# Spellings of numbers

Offsets, opcodes and bit patterns are written in lower-case hexadecimal behind `0x`, either
with no more digits than needed or padded with zeros to a width.  Everything else is decimal.
-/

namespace WasmAot.Text

/-- The number behind `0x`, in as few hexadecimal digits as it needs. -/
def hex (n : Nat) : String :=
  "0x" ++ String.ofList (Nat.toDigits 16 n)

/-- At least `width` hexadecimal digits, filled up with zeros on the left. -/
def hexDigits (width n : Nat) : String :=
  String.ofList ((Nat.toDigits 16 n).leftpad width '0')

/-- The number behind `0x`, in at least `width` hexadecimal digits. -/
def hexPadded (width n : Nat) : String :=
  "0x" ++ hexDigits width n

/-- Pieces of text with a comma and a blank between neighbours. -/
def commaSep (parts : List String) : String :=
  ", ".intercalate parts

/-- A list of bytes for a diagnostic: two digits each, in square brackets. -/
def byteList (bytes : List UInt8) : String :=
  "[" ++ commaSep (bytes.map fun b => hexDigits 2 b.toNat) ++ "]"

/-- Decimal digits, one for each unit of ten. -/
def decimal (n : Nat) : List Char :=
  Nat.toDigits 10 n

/-- A literal in parentheses if it is negative, so that a method can be called on it. -/
def signed (negative : Bool) (text : String) : String :=
  if negative then "(-" ++ text ++ ")" else text

end WasmAot.Text
