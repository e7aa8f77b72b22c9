/-
# Files and directories

A tree of files and directories with the times of their last changes, and a clock that every change
moves on.  Operations fail as those of an operating system do.
-/
import WasmAot.Files.Path

namespace WasmAot.Files

/-- A point in time, in nanoseconds. -/
abbrev Time := Nat

/-- Why an operation on files fails. -/
inductive DiskError where
  | notFound
  | alreadyExists
  | notADirectory
  | isADirectory
  | nameTooLong
  | nulInName
  | invalidUtf8
  deriving DecidableEq

/-- The error in words. -/
def DiskError.message : DiskError → String
  | notFound => "No such file or directory (os error 2)"
  | alreadyExists => "File exists (os error 17)"
  | notADirectory => "Not a directory (os error 20)"
  | isADirectory => "Is a directory (os error 21)"
  | nameTooLong => "File name too long (os error 36)"
  | nulInName => "file name contained an unexpected NUL byte"
  | invalidUtf8 => "stream did not contain valid UTF-8"

/-- A file or a directory. -/
inductive Node where
  | file (bytes : List UInt8) (modified : Time)
  | dir (entries : List (String × Node)) (modified : Time)

namespace Node

/-- The time of the last change. -/
def modified : Node → Time
  | file _ t | dir _ t => t

/-- The same with another time of the last change. -/
def touch (t : Time) : Node → Node
  | file bytes _ => file bytes t
  | dir entries _ => dir entries t

/-- The node that a sequence of names leads to. -/
def find? : Node → List String → Option Node
  | n, [] => some n
  | file .., _ :: _ => none
  | dir entries _, name :: rest =>
    match entries.lookup name with
    | some n => n.find? rest
    | none => none

/-- Changes the node that a sequence of names leads to. -/
def update (change : Node → Node) : List String → Node → Node
  | [], n => change n
  | _ :: _, file bytes t => file bytes t
  | name :: rest, dir entries t =>
    dir (entries.map fun e => if e.1 = name then (name, update change rest e.2) else e) t

/-- A directory with an entry put in, in place of one of the same name. -/
def insert (name : String) (n : Node) (now : Time) : Node → Node
  | file bytes t => file bytes t
  | dir entries _ =>
    if (entries.lookup name).isSome then
      dir (entries.map fun e => if e.1 = name then (name, n) else e) now
    else dir (entries ++ [(name, n)]) now

end Node

/-- The state of a file system. -/
structure Disk where
  root : Node
  /-- the names that lead to the working directory -/
  working : List String := []
  clock : Time

namespace Disk

/-- The largest number of bytes in a name. -/
def nameLimit : Nat := 255

/-- The largest number of bytes in a path. -/
def pathLimit : Nat := 4095

/-- Fails if the name is too long to be looked up. -/
def checkName (name : String) : Except DiskError Unit :=
  if nameLimit < name.utf8ByteSize then .error .nameTooLong else .ok ()

/-- Fails if the path cannot be followed whatever is on the disk. -/
def checkPath (p : Path) : Except DiskError Unit :=
  if p.steps.any fun s => s.toList.contains '\x00' then .error .nulInName
  else if pathLimit < p.text.utf8ByteSize then .error .nameTooLong
  else .ok ()

/-- Follows steps from a place that is given by names, innermost first.  A step can only be taken from
a directory, and a name has to be there. -/
def walk (root : Node) : List String → List String → Except DiskError (List String)
  | names, [] => .ok names.reverse
  | names, step :: rest =>
    match root.find? names.reverse with
    | some (.dir entries _) =>
      if step = "." then walk root names rest
      else if step = ".." then walk root names.tail rest
      else do
        checkName step
        if (entries.lookup step).isSome then walk root (step :: names) rest
        else .error .notFound
    | some (.file ..) => .error .notADirectory
    | none => .error .notFound

/-- Follows steps of a path from where the path starts; the answer is the names from the root. -/
def follow (d : Disk) (p : Path) (steps : List String) : Except DiskError (List String) := do
  checkPath p
  walk d.root (if p.absolute then [] else d.working.reverse) steps

/-- The names that a path leads along, from the root.  A slash behind it asks for a directory, as a
dot does. -/
def resolve (d : Disk) (p : Path) : Except DiskError (List String) :=
  d.follow p (if p.slash then p.steps ++ ["."] else p.steps)

/-- The directory from which the last step of a path is taken. -/
def parent (d : Disk) (p : Path) : Except DiskError (List String) :=
  d.follow p (p.steps.dropLast ++ ["."])

/-- The file or directory of a path. -/
def get (d : Disk) (p : Path) : Except DiskError Node := do
  let names ← d.resolve p
  match d.root.find? names with
  | some n => .ok n
  | none => .error .notFound

/-- The path leads to a directory. -/
def isDir (d : Disk) (p : Path) : Bool :=
  match d.get p with
  | .ok (.dir ..) => true
  | _ => false

/-- The time at which the file or directory of a path was changed last. -/
def modified? (d : Disk) (p : Path) : Option Time :=
  match d.get p with
  | .ok n => some n.modified
  | .error _ => none

/-- The contents of a file. -/
def read (d : Disk) (p : Path) : Except DiskError (List UInt8) := do
  match ← d.get p with
  | .file bytes _ => .ok bytes
  | .dir .. => .error .isADirectory

/-- The contents of a file as text. -/
def readText (d : Disk) (p : Path) : Except DiskError String := do
  let bytes ← d.read p
  match String.fromUTF8? bytes.toByteArray with
  | some s => .ok s
  | none => .error .invalidUtf8

/-- The names in a directory, in order. -/
def list (d : Disk) (p : Path) : Except DiskError (List String) := do
  match ← d.get p with
  | .dir entries _ => .ok ((entries.map Prod.fst).mergeSort fun a b => a ≤ b)
  | .file .. => .error .notADirectory

/-- Sets the time of the last change. -/
def setModified (d : Disk) (p : Path) (t : Time) : Except DiskError Disk := do
  let names ← d.resolve p
  .ok { d with root := d.root.update (Node.touch t) names }

/-- The name that a path ends with, if its last step is one. -/
def lastName (p : Path) : Option String :=
  match p.steps.getLast? with
  | none | some "." | some ".." => none
  | some name => some name

/-- The directory for a file, new or not, and the name of the file. -/
def placeFor (d : Disk) (p : Path) : Except DiskError (List String × String) := do
  let parent ← d.parent p
  match lastName p with
  | none => .error .isADirectory
  | some name =>
    if p.slash then .error .isADirectory
    else do
      checkName name
      .ok (parent, name)

/-- Puts a file or directory in a place. -/
def put (d : Disk) (parent : List String) (name : String) (n : Node) : Disk :=
  { d with root := d.root.update (Node.insert name n d.clock) parent, clock := d.clock + 1 }

/-- Writes a file, new or not. -/
def write (d : Disk) (p : Path) (bytes : List UInt8) : Except DiskError Disk := do
  let (parent, name) ← d.placeFor p
  match d.root.find? (parent ++ [name]) with
  | some (.dir ..) => .error .isADirectory
  | _ => .ok (d.put parent name (.file bytes d.clock))

/-- Makes a directory, which must not be there yet. -/
def makeDir (d : Disk) (p : Path) : Except DiskError Disk := do
  let parent ← d.parent p
  match lastName p with
  | none => .error .alreadyExists
  | some name =>
    checkName name
    match d.root.find? (parent ++ [name]) with
    | some _ => .error .alreadyExists
    | none => .ok (d.put parent name (.dir [] d.clock))

/-- Makes a directory unless it is there. -/
def ensureDir (d : Disk) (p : Path) : Except DiskError Disk :=
  match d.makeDir p with
  | .ok d => .ok d
  | .error e => if d.isDir p then .ok d else .error e

/-- Makes the first of some directories; if something on the way to it is missing, the others, which
lie around it, are made before.  What was made before a failure stays. -/
def ensureDirs : List Path → Disk → EStateM.Result DiskError Disk Unit
  | [], d => .ok () d
  | p :: around, d =>
    match d.ensureDir p with
    | .ok d => .ok () d
    | .error .notFound =>
      match ensureDirs around d with
      | .ok _ d =>
        match d.ensureDir p with
        | .ok d => .ok () d
        | .error e => .error e d
      | failed => failed
    | .error e => .error e d

end Disk

end WasmAot.Files
