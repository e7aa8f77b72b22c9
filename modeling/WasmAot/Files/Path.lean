/-
# Paths

A path is kept as it was given, since messages cite it so, along with the steps it stands for.
-/

namespace WasmAot.Files

/-- A path to a file or a directory. -/
structure Path where
  /-- the path as it was given -/
  text : String
  /-- it starts at the root and not at the working directory -/
  absolute : Bool
  /-- names of entries, `.` for a directory itself and `..` for the one around it -/
  steps : List String
  /-- a slash stands behind the last step: the path asks for a directory -/
  slash : Bool
  deriving DecidableEq

namespace Path

/-- The steps of a path: what stands between slashes. -/
def stepsOf (text : String) : List String :=
  (text.splitOn "/").filter fun s => !s.isEmpty

/-- The path of a text. -/
def ofText (text : String) : Path :=
  { text, absolute := text.startsWith "/", steps := stepsOf text, slash := text.endsWith "/" }

/-- The path of something in a directory. -/
def child (dir : Path) (name : String) : Path :=
  { text :=
      if dir.text.isEmpty || dir.text.endsWith "/" then dir.text ++ name
      else dir.text ++ "/" ++ name
    absolute := dir.absolute
    steps := dir.steps ++ stepsOf name
    slash := name.endsWith "/" }

/-- The steps that lead somewhere. -/
def properSteps (p : Path) : List String :=
  p.steps.filter (· != ".")

/-- The directories around a path as far as its steps tell, the nearest first. -/
def around (p : Path) : List Path :=
  let steps := p.properSteps
  (List.range (steps.length - 1)).reverse.map fun n =>
    let front := steps.take (n + 1)
    let start := if p.absolute then "/" else ""
    { text := start ++ "/".intercalate front, absolute := p.absolute, steps := front,
      slash := false }

/-- The name at the end of the path, unless it leads out of a directory. -/
def fileName (p : Path) : Option String :=
  match p.properSteps.getLast? with
  | some ".." => none
  | name => name

/-- A name without its last extension.  A dot in front of the name starts no extension. -/
def stem (name : String) : String :=
  let pieces := name.splitOn "."
  match pieces.dropLast with
  | [] | [""] => name
  | front => ".".intercalate front

end Path

end WasmAot.Files
