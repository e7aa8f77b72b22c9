/-
# Byte strings

The bytes of a data segment become the body of a byte-string literal: printable ASCII stands for
itself, the three common controls, the quotes and the backslash have two-character escapes, and
every other byte is written with two hexadecimal digits.
-/
import WasmAot.Text.Quoted

namespace WasmAot.Text

/-- One byte of a byte-string literal. -/
def escapeByte (b : UInt8) : List Char :=
  if b = 0x09 then [backslash, 't']
  else if b = 0x0d then [backslash, 'r']
  else if b = 0x0a then [backslash, 'n']
  else if b = 0x27 || b = 0x22 || b = 0x5c then [backslash, Char.ofNat b.toNat]
  else if 0x20 ≤ b && b < 0x7f then [Char.ofNat b.toNat]
  else [backslash, 'x', Nat.digitChar (b.toNat / 16), Nat.digitChar (b.toNat % 16)]

/-- The body of the literal, as characters. -/
def byteChars (bytes : List UInt8) : List Char :=
  bytes.flatMap escapeByte

/-- The body of the literal, without the quotes around it. -/
def byteLiteral (bytes : List UInt8) : String :=
  String.ofList (byteChars bytes)

end WasmAot.Text
