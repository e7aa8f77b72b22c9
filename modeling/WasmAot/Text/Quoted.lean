/-
# Text in literals and in comments

A name of a module can hold any character.  In a string literal of the emitted source, and in
a comment that cites it, a character without a visible form is written as an escape, so that
the name stays on its line and can be told apart from every other.
-/
import WasmAot.Text.Visible
import WasmAot.Text.Digits

namespace WasmAot.Text

/-- A backslash. -/
def backslash : Char := '\x5c'

/-- The escape of a character by its code point: `\u`, and the hexadecimal number in braces. -/
def codePointEscape (c : Char) : List Char :=
  [backslash, 'u', '\x7b'] ++ Nat.toDigits 16 c.toNat ++ ['\x7d']

/-- One character of a quoted text.  `quote` says which quotation marks are escaped, and
`marks` whether a combining mark is. -/
def escapeChar (quote : Char → Bool) (marks : Bool) (c : Char) : List Char :=
  if c.toNat = 0x00 then [backslash, '0']
  else if c.toNat = 0x09 then [backslash, 't']
  else if c.toNat = 0x0d then [backslash, 'r']
  else if c.toNat = 0x0a then [backslash, 'n']
  else if c = backslash || quote c then [backslash, c]
  else if (marks && isCombining c) || !isPrintable c then codePointEscape c
  else [c]

/-- The quotation mark that ends a string literal. -/
def isDoubleQuote (c : Char) : Bool :=
  c.toNat = 0x22

/-- Either quotation mark. -/
def isAnyQuote (c : Char) : Bool :=
  c.toNat = 0x22 || c.toNat = 0x27

/-- A string literal.  Inside it a double quote is escaped, a single one is not, and a combining
mark always is. -/
def stringLiteral (s : String) : String :=
  String.ofList
    (['\x22'] ++ s.toList.flatMap (escapeChar isDoubleQuote true) ++ ['\x22'])

/-- A name cited in a comment.  Both quotation marks are escaped; a combining mark only at the
start, where it has nothing to combine with. -/
def citedName (s : String) : String :=
  match s.toList with
  | [] => ""
  | c :: rest =>
    String.ofList (escapeChar isAnyQuote true c ++ rest.flatMap (escapeChar isAnyQuote false))

/-- A character literal of an unescaped character. -/
def charLiteral (c : Char) : String :=
  String.ofList ['\x27', c, '\x27']

end WasmAot.Text
