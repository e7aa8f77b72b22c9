/-
# Artifacts

The artifact of a module is one unit of source: constants for its data and its types, a struct whose
fields are its state, the methods of the struct, and the lookups through which other modules find its
exports.  `ofModule` makes it, `text` writes it.
-/
import WasmAot.Artifact.Interface
import WasmAot.Binary.Decode

namespace WasmAot

/-- What the caller chooses about the emitted text. -/
structure Options where
  /-- the name of the module, in the first line -/
  moduleName : String := "module"
  /-- the library that the emitted code uses -/
  library : String := "wasmlower_runtime"
  deriving DecidableEq

/-- The emitted unit for a module, before it is written. -/
structure Artifact where
  /-- the bytes of the data segments -/
  data : List (List UInt8)
  types : List FuncType
  fields : List Code.Field
  steps : List Artifact.Step
  methods : List Lowering.Method
  handles : List Artifact.Handle
  entries : List Artifact.Entry
  lookups : List Artifact.Lookup

namespace Artifact

/-! ### Writing -/

/-- The first lines: where the text comes from and what it uses. -/
def preamble (options : Options) : List Text.Line :=
  [.plain s!"// Generated by wasmlower 0.1.0 for module `{options.moduleName}`.",
    .plain "// Do not edit by hand.",
    .blank,
    .plain "#[allow(unused_imports)]",
    .plain s!"use {options.library}::*;",
    .plain "#[allow(unused_imports)]",
    .plain "use std::cell::\x7bCell, RefCell\x7d;",
    .plain "#[allow(unused_imports)]",
    .plain "use std::rc::\x7bRc, Weak\x7d;",
    .blank]

/-- Types as a constant list. -/
def typeSlice (types : List ValType) : String :=
  s!"&[{Text.commaSep (types.map ValType.signatureEntry)}]"

/-- A constant of the unit, which need not be used. -/
def constantLayout (text : String) : List Text.Line :=
  [.plain "#[allow(dead_code)]", .plain s!"static {text};"]

/-- A data segment as a constant. -/
def dataConstant (k : Nat) (bytes : List UInt8) : String :=
  s!"DATA_{k}: &[u8] = b\"{Text.byteLiteral bytes}\""

/-- A function type as a constant. -/
def typeConstant (n : Nat) (type : FuncType) : String :=
  s!"TYPE_{n}: Signature = Signature \x7b params: {typeSlice type.params}, " ++
    s!"results: {typeSlice type.results} \x7d"

/-- The constants: no data, the data segments, the types. -/
def constantsLayout (data : List (List UInt8)) (types : List FuncType) : List Text.Line :=
  constantLayout "NO_DATA: &[u8] = &[]" ++
    data.zipIdx.flatMap (fun d => constantLayout (dataConstant d.2 d.1)) ++
    types.zipIdx.flatMap (fun t => constantLayout (typeConstant t.2 t.1)) ++ [.blank]

/-- The struct. -/
def structLayout (fields : List Code.Field) : List Text.Line :=
  [.plain "#[allow(dead_code)]", .opening "pub struct Module \x7b"] ++
    fields.map (fun f => .plain s!"{f.name}: {f.type},") ++ [.closing "\x7d", .blank]

/-- The whole unit as lines. -/
def layout (options : Options) (a : Artifact) : List Text.Line :=
  preamble options ++ constantsLayout a.data a.types ++ structLayout a.fields ++
    [.opening "impl Module \x7b"] ++ constructorLayout a.steps ++
    a.methods.flatMap (fun f => .blank :: f.layout) ++ a.handles.flatMap Handle.layout ++
    a.entries.flatMap Entry.layout ++ [.closing "\x7d", .blank] ++ lookupsLayout a.lookups

/-- The unit as written. -/
def text (options : Options) (a : Artifact) : String :=
  Text.print 0 (a.layout options)

/-! ### Making -/

/-- The artifact of a module. -/
def ofModule (platform : Platform) (m : Module) : Except Error Artifact := do
  let p ← Plan.ofModule platform m
  let steps ← p.steps
  let methods ← (List.range m.functions.length).mapM (Lowering.lowerFunction m)
  let handles ← p.handles
  let entries ← p.entries
  .ok {
    data := m.data.map DataSegment.bytes
    types := m.types
    fields := p.fields
    steps, methods, handles, entries
    lookups := p.lookups }

end Artifact

/-- The source for a module. -/
def emitModule (platform : Platform) (m : Module) (options : Options) : Except Error String := do
  let artifact ← Artifact.ofModule platform m
  .ok (artifact.text options)

/-- The module that an input stands for: what does not begin like the binary format is taken for
text, and is assembled first. -/
def decodeInput (platform : Platform) (bytes : List UInt8) : Except Error Module :=
  if Binary.magic.isPrefixOf bytes then Binary.decode bytes
  else
    match platform.assemble bytes with
    | .ok binary => Binary.decode binary
    | .error message => .error (.text message)

/-- The source for a module in binary or in text form. -/
def compile (platform : Platform) (bytes : List UInt8) (options : Options) :
    Except Error String := do
  let m ← decodeInput platform bytes
  emitModule platform m options

end WasmAot
