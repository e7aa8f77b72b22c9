/-
# Compiling files, with a cache

Emitted source is kept under the name of its module, in memory or as files of a directory.  It is used
again as long as the source file was not changed after it was written.
-/
import WasmAot.Artifact.Basic
import WasmAot.Files.Failure

namespace WasmAot.Files

/-- What is kept in memory: for each key the source and the time at which it was written. -/
structure KeptSources where
  entries : List (String × String × Time) := []

/-- The cache with an entry, in place of one of the same key. -/
def KeptSources.insert (c : KeptSources) (key source : String) (now : Time) : KeptSources :=
  { entries := (key, source, now) :: c.entries.filter (fun e => e.1 != key) }

/-- Where emitted source is kept. -/
inductive Cache where
  | memory
  | directory (path : Path)

/-- The files, and what is kept in memory. -/
structure Workspace where
  disk : Disk
  kept : KeptSources := {}

/-- Work on files, which can fail on the way. -/
abbrev Work := EStateM Failure Workspace

/-- Runs a part of the work as an activity of its own. -/
def during {α : Type} (a : Activity) (work : Work α) : Work α := fun w =>
  match work w with
  | .ok x w => .ok x w
  | .error f w => .error (f.within a) w

/-- Takes the answer of the disk. -/
def ask {α : Type} (answer : Except DiskError α) : Work α :=
  match answer with
  | .ok a => return a
  | .error e => throw { during := [], cause := .disk e }

/-- Changes the disk. -/
def changeDisk (change : Disk → Except DiskError Disk) : Work Unit := do
  let disk ← ask (change (← get).disk)
  modify fun w => { w with disk }

/-- Makes directories; those that were made before a failure stay. -/
def makeDirs (paths : List Path) : Work Unit := fun w =>
  match Disk.ensureDirs paths w.disk with
  | .ok _ disk => .ok () { w with disk }
  | .error e disk => .error { during := [], cause := .disk e } { w with disk }

namespace Cache

/-- The file for a key. -/
def fileFor (directory : Path) (key : String) : Path :=
  directory.child s!"WasmModule_{key}.rs"

/-- When the source for a key was written, if there is one. -/
def writtenAt (c : Cache) (key : String) (w : Workspace) : Option Time :=
  match c with
  | memory => (w.kept.entries.lookup key).map Prod.snd
  | directory path => w.disk.modified? (fileFor path key)

/-- The source for a key, if there is one. -/
def find (c : Cache) (key : String) : Work (Option String) := do
  let w ← get
  match c with
  | memory => return (w.kept.entries.lookup key).map Prod.fst
  | directory path =>
    let place := fileFor path key
    match w.disk.readText place with
    | .error .notFound => return none
    | answer => during (.reading place.text) (some <$> ask answer)

/-- A file beside that for a key, with six more characters at the end of its name, which make it
unlike any other. -/
def draftFor (directory : Path) (key : String) : Path :=
  directory.child s!"WasmModule_{key}......"

/-- Keeps a source in a directory.  The directory is made if need be; the file is written beside its
place and then moved there, so that a reader finds the old or the new one. -/
def writeFile (directory : Path) (key source : String) : Work Unit := do
  during (.creatingCache directory.text) (makeDirs (directory :: directory.around))
  let place := fileFor directory key
  let d := (← get).disk
  let _ ← during (.openingCache directory.text) (ask (d.placeFor (draftFor directory key)))
  let (parent, name) ← during (.writingCache place.text) (ask (d.placeFor place))
  match d.root.find? (parent ++ [name]) with
  | some (.dir ..) =>
    throw { during := [.writingCache place.text, .moving .isADirectory],
            cause := .disk .isADirectory }
  | _ =>
    set { ← get with disk := d.put parent name (.file source.toUTF8.toList d.clock) }

/-- Keeps a source under a key. -/
def keep (c : Cache) (key source : String) : Work Unit := do
  match c with
  | memory =>
    modify fun w =>
      { w with
        kept := w.kept.insert key source w.disk.clock
        disk := { w.disk with clock := w.disk.clock + 1 } }
  | directory path => writeFile path key source

end Cache

/-- Reads and compiles a file. -/
def compileAt (platform : Platform) (path : Path) (options : Options) : Work String := do
  let bytes ← during (.reading path.text) (ask ((← get).disk.read path))
  match compile platform bytes options with
  | .ok source => return source
  | .error e => throw { during := [.compiling path.text], cause := .source e }

/-- The kept source can be used: the file was not changed after it was written. -/
def isFresh (changed written : Option Time) : Bool :=
  match changed, written with
  | some changed, some written => changed ≤ written
  | _, _ => false

/-- Compiles a file, or takes the source that is kept under the name of the module if it is fresh. -/
def compileCached (platform : Platform) (path : Path) (options : Options) (cache : Cache) :
    Work String := do
  let key := options.moduleName
  let w ← get
  let kept ←
    if isFresh (w.disk.modified? path) (cache.writtenAt key w) then cache.find key
    else pure none
  match kept with
  | some source => return source
  | none =>
    let source ← compileAt platform path options
    during (.caching key) (cache.keep key source)
    return source

end WasmAot.Files
