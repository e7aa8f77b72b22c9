/-
# The program

Takes a picture of the files that the arguments name, runs the command on it, and does to the real
files what the command did to the picture.
-/
import WasmAot.CommandLine.Run
import WasmAot.Release

namespace WasmAot.CommandLine

open Files

/-- A path by names from the root, as the system takes it. -/
def systemPath (names : List String) : String :=
  "/" ++ "/".intercalate names

/-- The places that a path leads through, each by its names from the root. -/
def placesAlong (working : List String) (p : Path) : List (List String) :=
  let enter (names : List String) (step : String) : List String :=
    if step = "." then names else if step = ".." then names.dropLast else names ++ [step]
  (List.range (p.steps.length + 1)).map fun n =>
    (p.steps.take n).foldl enter (if p.absolute then [] else working)

/-- The time of a change in nanoseconds; there is none before the epoch. -/
def timeOf (t : IO.FS.SystemTime) : Time :=
  t.sec.toNat * 1000000000 + t.nsec.toNat

/-- The real file or directory, without what is in the directory. -/
def takeNode (names : List String) : IO (Option Node) := do
  let path := (← IO.currentDir) / systemPath names
  try
    let about ← path.metadata
    match about.type with
    | .dir => return some (.dir [] (timeOf about.modified))
    | _ => return some (.file (← IO.FS.readBinFile path).toList (timeOf about.modified))
  catch _ => return none

/-- Adds to the picture what is found along names. -/
def takePicture (root : Node) (before : List String) : List String → IO Node
  | [] => return root
  | name :: rest => do
    let names := before ++ [name]
    if (root.find? names).isSome then takePicture root names rest
    else
      match ← takeNode names with
      | some node => takePicture (root.update (Node.insert name node 0) before) names rest
      | none => return root

mutual

/-- Makes real what is new in the picture, from the place with the given names on. -/
def realize (start : Time) (names : List String) : Node → IO Unit
  | .file bytes t => do
    if start ≤ t then IO.FS.writeBinFile ((← IO.currentDir) / systemPath names) bytes.toByteArray
  | .dir entries t => do
    if start ≤ t then IO.FS.createDirAll ((← IO.currentDir) / systemPath names)
    realizeEntries start names entries

/-- Makes real what is new among the entries of a directory. -/
def realizeEntries (start : Time) (names : List String) : List (String × Node) → IO Unit
  | [] => return ()
  | (name, node) :: rest => do
    realize start (names ++ [name]) node
    realizeEntries start names rest

end

/-- Runs the command on the real files. -/
def runReal (args : List String) : IO Outcome := do
  let working := (Path.ofText (← IO.currentDir).toString).steps
  let files :=
    match Request.ofArguments args with
    | .compile input a => a.files .release input
    | _ => []
  let mut root := Node.dir [] 0
  for names in files.flatMap (placesAlong working) do
    root ← takePicture root [] names
  let start := 1 <<< 64
  let outcome := run .release args { root, working, clock := start }
  realize start [] outcome.disk.root
  return outcome

end WasmAot.CommandLine

/-- Runs the command and tells what came of it. -/
def main (args : List String) : IO UInt32 := do
  let outcome ← WasmAot.CommandLine.runReal args
  IO.print outcome.stdout
  IO.eprint outcome.stderr
  return outcome.code.toUInt32
