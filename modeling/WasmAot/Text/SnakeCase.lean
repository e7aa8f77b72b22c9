/-
# Snake case

A name is cut into words at every character that is no letter and no digit, before an upper-case
letter that follows a lower-case one, and before the last letter of a run of upper-case letters
that a lower-case letter follows (`HTTPServer` is `HTTP` and `Server`).  The words are written in
lower case with an underscore between them.
-/
import WasmAot.Text.Alphanumeric
import WasmAot.Text.LetterCase

namespace WasmAot.Text

/-- What the letters of the current word have shown so far. -/
inductive WordMode where
  /-- no cased letter yet -/
  | boundary
  /-- the last cased letter was lower case -/
  | lower
  /-- the last cased letter was upper case -/
  | upper
  deriving DecidableEq

/-- The mode after a letter, if the word goes on. -/
def WordMode.after (mode : WordMode) (c : Char) : WordMode :=
  if isLower c then .lower else if isUpper c then .upper else mode

/-- The words of a piece without separators.  `word` holds the letters of the current word, last
letter first. -/
def wordsFrom (mode : WordMode) (word : List Char) : List Char → List (List Char)
  | [] => []
  | [c] => [(c :: word).reverse]
  | c :: n :: rest =>
    if mode.after c = .lower && isUpper n then
      (c :: word).reverse :: wordsFrom .boundary [] (n :: rest)
    else if mode = .upper && isUpper c && isLower n then
      word.reverse :: wordsFrom .boundary [c] (n :: rest)
    else wordsFrom (mode.after c) (c :: word) (n :: rest)

/-- The pieces between the characters that satisfy `sep`. -/
def splitAtChars (sep : Char → Bool) : List Char → List (List Char)
  | [] => [[]]
  | c :: rest =>
    match splitAtChars sep rest with
    | [] => [[c]]
    | piece :: pieces => if sep c then [] :: piece :: pieces else (c :: piece) :: pieces

/-- A word in lower case; a capital sigma at its end takes the final form. -/
def lowerWord : List Char → List Char
  | [] => []
  | [c] => if c.toNat = 0x3a3 then [Char.ofNat 0x3c2] else toLower c
  | c :: rest => toLower c ++ lowerWord rest

/-- The words of a name, in order. -/
def wordsOf (name : List Char) : List (List Char) :=
  (splitAtChars (fun c => !isAlphanumeric c) name).flatMap (wordsFrom .boundary [])

/-- The name in snake case. -/
def snakeCase (name : List Char) : List Char :=
  List.intercalate ['_'] ((wordsOf name).map lowerWord)

end WasmAot.Text
