/-
# Method names

An export can have any name; the method for it needs an identifier of its own.  The name is put into
snake case, reduced to ASCII letters, digits and underscores, kept apart from keywords, and given a
number if the result is taken already.

The numbers come from a counter of a fixed width.  Where it ends the search does not: the counter
stops the program, or it goes on below zero.
-/
import WasmAot.Error
import WasmAot.Platform
import WasmAot.Text.Alphanumeric

namespace WasmAot.Artifact

/-- Words that are no identifiers, but become raw ones behind `r#`. -/
def keywords : List String :=
  ["abstract", "as", "async", "await", "become", "box", "break", "const", "continue", "do",
    "dyn", "else", "enum", "extern", "false", "final", "fn", "for", "gen", "if", "impl", "in",
    "let", "loop", "macro", "match", "mod", "move", "mut", "override", "priv", "pub", "ref",
    "return", "static", "struct", "trait", "true", "try", "type", "typeof", "unsafe", "unsized",
    "use", "virtual", "where", "while", "yield"]

/-- Words that cannot even be raw identifiers. -/
def reservedPaths : List String :=
  ["self", "super", "crate", "Self"]

/-- What takes the place of a name without any letter or digit. -/
def placeholder : List Char :=
  ['e', 'x', 'p', 'o', 'r', 't']

/-- An identifier from a name in snake case: what is no ASCII letter or digit becomes an underscore, a
name of underscores alone gives way to a placeholder, and a leading digit gets an underscore in
front. -/
def identChars (snake : List Char) : List Char :=
  let chars := snake.map fun c => if Text.isAsciiAlphanumeric c then c else '_'
  let chars := if chars.all (· == '_') then placeholder else chars
  match chars with
  | c :: _ => if Text.isAsciiDigit c then '_' :: chars else chars
  | [] => chars

/-- An identifier for a name; it can be a keyword. -/
def plainIdent (snakeCase : String → String) (name : String) : String :=
  String.ofList (identChars (snakeCase name).toList)

/-- The identifier, kept apart from keywords. -/
def escapeKeyword (ident : String) : String :=
  if reservedPaths.contains ident then ident ++ "_"
  else if keywords.contains ident then "r#" ++ ident
  else ident

/-- An identifier for a name that can be used as it is. -/
def methodName (snakeCase : String → String) (name : String) : String :=
  escapeKeyword (plainIdent snakeCase name)

/-- The rest of a text behind a given beginning. -/
def stripStart? : List Char → List Char → Option (List Char)
  | [], rest => some rest
  | _ :: _, [] => none
  | c :: start, d :: rest => if c = d then stripStart? start rest else none

/-- A nonempty sequence of digits. -/
def isNumber (chars : List Char) : Bool :=
  !chars.isEmpty && chars.all Text.isAsciiDigit

/-- The names of the methods for functions and for references to them: `fn_` or `ref_fn_` and a
number. -/
def isReserved (name : String) : Bool :=
  match stripStart? "ref_fn_".toList name.toList with
  | some rest => isNumber rest
  | none =>
    match stripStart? "fn_".toList name.toList with
    | some rest => isNumber rest
    | none => false

/-- A name without the marks of raw identifiers in front of it. -/
def stripRaw : List Char → List Char
  | 'r' :: '#' :: rest => stripRaw rest
  | chars => chars

/-- A counter of signed numbers. -/
structure Counter where
  bits : Nat
  overflow : Overflow

namespace Counter

/-- How many numbers there are. -/
def size (c : Counter) : Nat :=
  1 <<< c.bits

/-- How many of them are below zero. -/
def half (c : Counter) : Nat :=
  1 <<< (c.bits - 1)

/-- The largest number. -/
def largest (c : Counter) : Int :=
  c.half - 1

/-- The smallest number. -/
def smallest (c : Counter) : Int :=
  -c.half

/-- The number after `n`, if the program gets that far. -/
def next (c : Counter) (n : Int) : Option Int :=
  if n < c.largest then some (n + 1)
  else
    match c.overflow with
    | .stops => none
    | .wraps => some c.smallest

end Counter

/-- The names given out so far. -/
structure NamePool where
  used : List String
  deriving DecidableEq

namespace NamePool

/-- The constructor and the lookups by name are always there. -/
def start : NamePool :=
  { used := ["new", "func", "memory", "table", "global"] }

/-- The name cannot be given out. -/
def isTaken (pool : NamePool) (name : String) : Bool :=
  pool.used.contains name || isReserved name

/-- The name with a number behind it. -/
def numbered (base : String) (n : Int) : String :=
  base ++ "_" ++ toString n

/-- The first free name among the base with the numbers of the counter from `n` on, `tries` of
them. -/
def firstFree (c : Counter) (pool : NamePool) (base : String) (n : Int) :
    Nat → Except Breakdown String
  | 0 => .error .endless
  | tries + 1 =>
    let name := numbered base n
    if pool.isTaken name then
      match c.next n with
      | some next => firstFree c pool base next tries
      | none => .error .overflow
    else .ok name

/-- Gives out the candidate, or else its base with the first number from 2 on that makes it free.
After as many tries as there are numbers the counter is at 2 again. -/
def draw (c : Counter) (pool : NamePool) (candidate : String) :
    Except Breakdown (String × NamePool) :=
  let give (name : String) : String × NamePool := (name, { used := name :: pool.used })
  if pool.isTaken candidate then
    let base := String.ofList (stripRaw candidate.toList)
    (firstFree c pool base 2 c.size).map give
  else .ok (give candidate)

end NamePool

end WasmAot.Artifact
