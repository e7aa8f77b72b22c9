/-
# The command

Compiles one file.  The source goes to the output file or else to standard output, and what is done
is told on standard error.
-/
import WasmAot.CommandLine.Arguments
import WasmAot.Files.Cache

namespace WasmAot.CommandLine

open Files

/-- What the command leaves behind. -/
structure Outcome where
  code : Nat
  stdout : String := ""
  stderr : String := ""
  disk : Disk

/-- The name of the module if none is given: that of the file, without its extension. -/
def defaultName (platform : Platform) (input : Path) : String :=
  match input.fileName with
  | some name => Artifact.plainIdent platform.snakeCase (Path.stem name)
  | none => "module"

/-- The source for the input, from the cache if there is one. -/
def obtain (platform : Platform) (input : Path) (options : Options) (cacheDir : Option String) :
    Work String :=
  during .compilation <|
    match cacheDir with
    | some dir => compileCached platform input options (.directory (Path.ofText dir))
    | none => compileAt platform input options

/-- Delivers the source; the answer is what goes to standard output and what is told about it. -/
def deliver (source : String) : Option String → Work (String × String)
  | some output => do
    let path := Path.ofText output
    during (.writing path.text) (changeDisk fun d => d.write path source.toUTF8.toList)
    return ("", s!"wasmlower: wrote {path.text}\n")
  | none => return (source, "")

/-- The name under which the input is compiled. -/
def Arguments.moduleName (platform : Platform) (a : Arguments) (input : Path) : String :=
  a.name.getD (defaultName platform input)

/-- Compiles the input as the arguments say. -/
def compileInput (platform : Platform) (input : String) (a : Arguments) (d : Disk) : Outcome :=
  let path := Path.ofText input
  let start := s!"wasmlower: compiling {path.text}\n"
  let options : Options := { moduleName := a.moduleName platform path }
  let work : Work (String × String) := do
    let source ← obtain platform path options a.cacheDir
    deliver source a.output
  match work { disk := d } with
  | .ok (stdout, told) w =>
    { code := 0, stdout, stderr := start ++ told ++ "wasmlower: compilation complete\n",
      disk := w.disk }
  | .error f w => { code := 1, stderr := start ++ s!"Error: {f.report}\n", disk := w.disk }

/-- The files that a compilation reads or writes: the input, the output and the one in the cache. -/
def Arguments.files (platform : Platform) (input : String) (a : Arguments) : List Path :=
  let path := Path.ofText input
  let cached := a.cacheDir.map fun dir =>
    Cache.fileFor (Path.ofText dir) (a.moduleName platform path)
  path :: (a.output.map Path.ofText).toList ++ cached.toList

/-- How the command is called. -/
def usage : String :=
  "Usage: wasmlower [OPTIONS] <INPUT>\n"

/-- The usage, with the arguments and options explained. -/
def helpText : String :=
  "Ahead-of-time lowering of WebAssembly modules into Rust source\n\n" ++ usage ++
    "\nArguments:\n" ++
    "  <INPUT>  Input module (.wasm binary or .wat text)\n" ++
    "\nOptions:\n" ++
    "  -o, --output <OUTPUT>        Output Rust source file\n" ++
    "      --name <NAME>            Module name used for registration and caching " ++
    "(default: input file stem)\n" ++
    "      --cache-dir <CACHE_DIR>  Reuse and store generated source in this directory\n" ++
    "  -h, --help                   Print help\n" ++
    "  -V, --version                Print version\n"

/-- Runs the command. -/
def run (platform : Platform) (args : List String) (d : Disk) : Outcome :=
  match Request.ofArguments args with
  | .compile input a => compileInput platform input a d
  | .help => { code := 0, stdout := helpText, disk := d }
  | .version => { code := 0, stdout := "wasmlower 0.1.0\n", disk := d }
  | .misuse => { code := 2, stderr := usage, disk := d }

end WasmAot.CommandLine
