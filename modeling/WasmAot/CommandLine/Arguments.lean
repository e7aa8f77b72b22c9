/-
# Arguments of the command line

One input file, and options with a value each: `-o` or `--output`, `--name` and `--cache-dir`.  The
value of a long option stands behind an equals sign or in the next argument; that of the short one can
also follow the letter.  Behind `--` there are no options any more.
-/

namespace WasmAot.CommandLine

/-- The options that take a value. -/
inductive Setting where
  | output
  | name
  | cacheDir
  deriving DecidableEq

/-- What the arguments say. -/
structure Arguments where
  input : Option String := none
  output : Option String := none
  name : Option String := none
  cacheDir : Option String := none
  deriving DecidableEq

/-- What the command is asked to do. -/
inductive Request where
  | compile (input : String) (args : Arguments)
  | help
  | version
  /-- the arguments make no sense -/
  | misuse
  deriving DecidableEq

/-- Sets an option.  Each is given once, and a file or directory has a name. -/
def Arguments.set (a : Arguments) (o : Setting) (value : String) : Option Arguments :=
  match o with
  | .output =>
    if a.output.isSome || value.isEmpty then none else some { a with output := some value }
  | .name => if a.name.isSome then none else some { a with name := some value }
  | .cacheDir =>
    if a.cacheDir.isSome || value.isEmpty then none else some { a with cacheDir := some value }

/-- Sets the input, once. -/
def Arguments.setInput (a : Arguments) (value : String) : Option Arguments :=
  if a.input.isSome || value.isEmpty then none else some { a with input := some value }

/-- An argument, by what it looks like. -/
inductive Word where
  /-- the end of the options -/
  | dashes
  | help
  | version
  /-- an option with a value attached to it, or not -/
  | option (o : Setting) (value : Option String)
  /-- it starts like an option but is none -/
  | unknown
  | plain (text : String)
  deriving DecidableEq

/-- The option of a long name. -/
def longOption : String → Option Setting
  | "output" => some .output
  | "name" => some .name
  | "cache-dir" => some .cacheDir
  | _ => none

/-- What stands behind two dashes. -/
def longWord (text : List Char) : Word :=
  let name := String.ofList (text.takeWhile (· != '='))
  let value :=
    match text.dropWhile (· != '=') with
    | [] => none
    | _ :: value => some (String.ofList value)
  match longOption name, name, value with
  | some o, _, _ => .option o value
  | none, "help", none => .help
  | none, "version", none => .version
  | none, _, _ => .unknown

/-- What stands behind one dash. -/
def shortWord : List Char → Word
  | 'o' :: [] => .option .output none
  | 'o' :: '=' :: value => .option .output (some (String.ofList value))
  | 'o' :: value => .option .output (some (String.ofList value))
  | 'h' :: _ => .help
  | 'V' :: _ => .version
  | _ => .unknown

/-- Tells what an argument is. -/
def Word.ofText (text : String) : Word :=
  match text.toList with
  | ['-', '-'] => .dashes
  | '-' :: '-' :: rest => longWord rest
  | ['-'] => .plain text
  | '-' :: rest => shortWord rest
  | _ => .plain text

/-- Reads the arguments behind `--`. -/
def readPlain (a : Arguments) : List String → Option Arguments
  | [] => some a
  | text :: rest => do readPlain (← a.setInput text) rest

/-- The request of finished arguments. -/
def Arguments.request : Option Arguments → Request
  | some a =>
    match a.input with
    | some input => .compile input a
    | none => .misuse
  | none => .misuse

/-- Reads arguments from left to right; the first fault decides.  `waiting` is an option whose value has
to come next. -/
def readWords (a : Arguments) (waiting : Option Setting) : List String → Request
  | [] => if waiting.isSome then .misuse else Arguments.request (some a)
  | text :: rest =>
    match Word.ofText text, waiting with
    | .plain text, some o =>
      match a.set o text with
      | some a => readWords a none rest
      | none => .misuse
    | .plain text, none =>
      match a.setInput text with
      | some a => readWords a none rest
      | none => .misuse
    | _, some _ => .misuse
    | .dashes, none => Arguments.request (readPlain a rest)
    | .help, none => .help
    | .version, none => .version
    | .option o none, none => readWords a (some o) rest
    | .option o (some value), none =>
      match a.set o value with
      | some a => readWords a none rest
      | none => .misuse
    | .unknown, none => .misuse

/-- What the arguments ask for. -/
def Request.ofArguments (args : List String) : Request :=
  readWords {} none args

end WasmAot.CommandLine
