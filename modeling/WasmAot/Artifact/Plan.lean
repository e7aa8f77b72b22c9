/-
# The plan of an artifact

Before anything is emitted for a module its parts are checked against each other, the modules it
imports from are numbered, and its exports get their method names.
-/
import WasmAot.Artifact.Identifier
import WasmAot.Module.IndexSpace

namespace WasmAot.Artifact

/-- An export and the name of the method for it. -/
structure NamedExport where
  name : String
  method : String
  kind : ExternKind
  index : Nat
  deriving DecidableEq

/-- What the emitted code is made from. -/
structure Plan where
  source : Module
  /-- the modules that are imported from, in order of first appearance -/
  providers : List String
  exports : List NamedExport

/-! ### Names -/

/-- The names without repetitions, in order of first appearance. -/
def distinct (names : List String) : List String :=
  names.foldl (fun seen name => if seen.contains name then seen else seen ++ [name]) []

/-- The method name that an export asks for. -/
def candidate (snakeCase : String → String) (e : Export) : String :=
  match e.kind with
  | .func => methodName snakeCase e.name
  | .memory => "memory_" ++ plainIdent snakeCase e.name
  | .table => "table_" ++ plainIdent snakeCase e.name
  | .global => "global_" ++ plainIdent snakeCase e.name

/-- The counter for the numbers behind method names. -/
def nameCounter (platform : Platform) : Counter :=
  { bits := 32, overflow := platform.overflow }

/-- Gives every export its method name, after a check of its index. -/
def assignNames (platform : Platform) (m : Module) (pool : NamePool) :
    List Export → Except Error (List NamedExport)
  | [] => .ok []
  | e :: rest =>
    if e.index < m.count e.kind then
      match pool.draw (nameCounter platform) (candidate platform.snakeCase e) with
      | .error why => .error (.breakdown why)
      | .ok (method, pool) => do
        let items ← assignNames platform m pool rest
        .ok ({ name := e.name, method, kind := e.kind, index := e.index } :: items)
    else .error (.validation (.exportIndex e.name e.kind e.index))

/-! ### Constants -/

/-- The type of a constant; its index has to be in range. -/
def typeOfConst (m : Module) : ConstExpr → Except Error ValType
  | .i32 _ => .ok .i32
  | .i64 _ => .ok .i64
  | .f32 _ => .ok .f32
  | .f64 _ => .ok .f64
  | .refNull ty => .ok ty
  | .refFunc func => do
    let _ ← m.funcAt func
    .ok .funcref
  | .globalGet index => do
    let type ← m.typeOfGlobal index
    .ok type.ty

/-- The offset of a segment: an integer, or the value of a global. -/
inductive Offset where
  | const (value : BitVec 32)
  | global (index : Nat)
  deriving DecidableEq

/-- The offset that a constant expression gives, if it can. -/
def offsetOf (offset : ConstExpr) : Except Error Offset :=
  match offset with
  | .i32 value => .ok (.const value)
  | .globalGet index => .ok (.global index)
  | _ => .error (.validation (.segmentOffset offset))

/-- Fails unless the constant can be the offset of a segment. -/
def checkOffset (m : Module) (offset : ConstExpr) : Except Error Unit := do
  let _ ← offsetOf offset
  let ty ← typeOfConst m offset
  if ty = .i32 then .ok () else .error (.validation (.segmentOffset offset))

/-! ### Checks -/

/-- Every table holds functions. -/
def checkTables (m : Module) : Except Error Unit :=
  (List.range (m.count .table)).forM m.requireFuncTable

/-- Every function has a type. -/
def checkFuncTypes (m : Module) : Except Error Unit := do
  m.imports.forM fun item =>
    match item.desc with
    | .func type => do let _ ← m.typeAt type
    | _ => .ok ()
  m.functions.forM fun func => do let _ ← m.typeAt func.type

/-- A global starts with a value of its type, taken from no later global. -/
def checkGlobal (m : Module) (index : Nat) (g : GlobalDef) : Except Error Unit := do
  match g.init with
  | .globalGet source =>
    if source < index then .ok () else .error (.validation (.globalOrder index source))
  | _ => .ok ()
  let found ← typeOfConst m g.init
  if found = g.type.ty then .ok ()
  else .error (.validation (.globalInitType index g.type.ty found))

/-- Every global starts with a value of its type. -/
def checkGlobals (m : Module) : Except Error Unit :=
  (m.globals.zipIdx (m.importCount .global)).forM fun p => checkGlobal m p.2 p.1

/-- An element segment holds functions, and an active one fits its table. -/
def checkElemSegment (m : Module) (segment : Nat) (s : ElemSegment) : Except Error Unit := do
  if s.ty = .funcref then .ok () else .error (.validation (.segmentElement segment s.ty))
  match s.mode with
  | .active table offset =>
    let _ ← m.typeOfTable table
    checkOffset m offset
  | _ => .ok ()
  s.items.forM fun item => do
    let ty ← typeOfConst m item
    if ty = .funcref then .ok () else .error (.validation (.segmentItem segment item))

/-- Every element segment is in order. -/
def checkElems (m : Module) : Except Error Unit :=
  m.elements.zipIdx.forM fun p => checkElemSegment m p.2 p.1

/-- Every active data segment has a memory and an offset. -/
def checkData (m : Module) : Except Error Unit :=
  m.data.forM fun s =>
    match s.mode with
    | .active memory offset => do
      m.requireMemory memory
      checkOffset m offset
    | .passive => .ok ()

/-- The start function takes nothing and gives nothing. -/
def checkStart (m : Module) : Except Error Unit :=
  match m.start with
  | none => .ok ()
  | some func => do
    let type ← m.typeOfFunc func
    if type.params.isEmpty && type.results.isEmpty then .ok ()
    else .error (.validation (.startSignature func))

/-- All checks of a module, in order. -/
def checkModule (m : Module) : Except Error Unit := do
  checkTables m
  checkFuncTypes m
  checkGlobals m
  checkElems m
  checkData m
  checkStart m

/-- The plan for a module. -/
def Plan.ofModule (platform : Platform) (m : Module) : Except Error Plan := do
  let providers := distinct (m.imports.map Import.moduleName)
  let exports ← assignNames platform m NamePool.start m.exports
  checkModule m
  .ok { source := m, providers, exports }

/-- The number of a module that is imported from. -/
def Plan.provider (p : Plan) (moduleName : String) : Except Error Nat :=
  match p.providers.findIdx? (· == moduleName) with
  | some n => .ok n
  | none => .error (.validation (.noImportsFrom moduleName))

end WasmAot.Artifact
