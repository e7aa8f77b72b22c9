/-
# Indented text

Emitted source is a sequence of lines.  Some of them open a level of indentation, some close one,
and some do both.  `print` turns the sequence into text: four blanks for each level, none on an
empty line.
-/

namespace WasmAot.Text

/-- A line of indented text. -/
inductive Line where
  /-- a line at the current level -/
  | plain (text : String)
  /-- an empty line -/
  | blank
  /-- a line after which the level is one deeper -/
  | opening (text : String)
  /-- a line that stands one level further out, as does what follows -/
  | closing (text : String)
  /-- a line that stands one level further out, while what follows does not -/
  | reopening (text : String)
  /-- text inserted as it stands -/
  | verbatim (text : String)

/-- Text laid out so far: the characters, and the level of the next line. -/
structure Sheet where
  text : String
  level : Nat

namespace Sheet

/-- Nothing written yet. -/
def start (level : Nat) : Sheet :=
  { text := "", level }

/-- One line at the sheet's level. -/
def line (s : Sheet) (text : String) : Sheet :=
  if text.isEmpty then { s with text := s.text ++ "\n" }
  else { s with text := s.text ++ String.ofList (List.replicate (4 * s.level) ' ') ++ text ++ "\n" }

theorem level_line (s : Sheet) (text : String) : (s.line text).level = s.level := by
  unfold line
  split <;> rfl

/-- Writes the next line. -/
def write (s : Sheet) : Line → Sheet
  | .plain text => s.line text
  | .blank => { s with text := s.text ++ "\n" }
  | .opening text => let s := s.line text; { s with level := s.level + 1 }
  | .closing text => { s with level := s.level - 1 }.line text
  | .reopening text =>
    let s := { s with level := s.level - 1 }.line text; { s with level := s.level + 1 }
  | .verbatim text => { s with text := s.text ++ text }

end Sheet

/-- The text of the lines, the first of them at the given level. -/
def print (level : Nat) (lines : List Line) : String :=
  (lines.foldl Sheet.write (Sheet.start level)).text

end WasmAot.Text
