/-
# The constructor

The constructor of the emitted struct finds what the module imports, makes its memories, globals and
tables, builds the instance and publishes it, and then does what needs the finished instance: globals
and segments that refer to functions, the copying of active segments, the start function.
-/
import WasmAot.Artifact.Plan
import WasmAot.Code.Line
import WasmAot.Text.ByteLiteral

namespace WasmAot.Artifact

open Code

/-! ### The fields of the struct -/

/-- The field for an item, by its kind and its index within the kind. -/
def itemField (kind : ExternKind) (index : Nat) : Field :=
  match kind with
  | .func => .func index
  | .memory => .memory index
  | .table => .table index
  | .global => .global index

/-- The imports with the fields for them. -/
def importFields (m : Module) : List (Import × Field) :=
  (m.imports.zip m.indicesOfImports).map fun p => (p.1, itemField p.1.desc.kind p.2)

/-- The fields that the constructor binds to variables of the same name. -/
def Plan.boundFields (p : Plan) : List Field :=
  let m := p.source
  (List.range p.providers.length).map .provider ++ (importFields m).map Prod.snd ++
    (m.definedIndices .memory).map .memory ++ (m.definedIndices .global).map .global ++
    (m.definedIndices .table).map .table

/-- The fields of the struct, in order. -/
def Plan.fields (p : Plan) : List Field :=
  [.me] ++ p.boundFields ++ (List.range p.source.data.length).map .data ++
    (List.range p.source.elements.length).map .elem

/-- A field of the struct literal; without a value it takes the variable of its name. -/
structure FieldInit where
  field : Field
  value : Option String
  deriving DecidableEq

/-- The first contents of the field for a data segment: an active segment is used up by the
constructor. -/
def firstData (passive : Bool) (segment : Nat) : String :=
  if passive then s!"Cell::new(DATA_{segment})" else "Cell::new(NO_DATA)"

/-- The fields of the struct literal, in order. -/
def Plan.fieldInits (p : Plan) : List FieldInit :=
  [{ field := .me, value := some "me.clone()" }] ++
    p.boundFields.map (fun f => { field := f, value := none }) ++
    p.source.data.zipIdx.map (fun s =>
      { field := .data s.2, value := some (firstData (s.1.mode = .passive) s.2) }) ++
    (List.range p.source.elements.length).map (fun k =>
      { field := .elem k, value := some "RefCell::new(Vec::new())" })

/-- The field of the literal as written. -/
def FieldInit.text (f : FieldInit) : String :=
  match f.value with
  | some value => s!"{f.field.name}: {value},"
  | none => s!"{f.field.name},"

/-! ### Values that need the finished instance -/

/-- A reference to a function of the finished instance. -/
inductive FuncItem where
  | own (func : Nat)
  | imported (func : Nat)
  deriving DecidableEq

/-- The reference as written. -/
def FuncItem.text : FuncItem → String
  | own func => s!"Some(module.ref_fn_{func}())"
  | imported func => s!"Some({(Field.func func).onModule}.clone())"

/-- The reference to a function by its index. -/
def functionItem (m : Module) (func : Nat) : Except Error FuncItem := do
  match ← m.funcAt func with
  | .defined .. => .ok (.own func)
  | .imported .. => .ok (.imported func)

/-- An item of an element segment. -/
inductive ElemItem where
  | func (item : FuncItem)
  | null
  | global (index : Nat)
  deriving DecidableEq

/-- The item as written. -/
def ElemItem.text : ElemItem → String
  | func item => item.text
  | null => "None"
  | global index => s!"{(Field.global index).onModule}.borrow().get_ref()?.as_func_ref()?"

/-- The item that a constant gives, if it is a reference. -/
def elemItem (m : Module) (item : ConstExpr) : Except Error ElemItem :=
  match item with
  | .refFunc func => do .ok (.func (← functionItem m func))
  | .refNull _ => .ok .null
  | .globalGet index => .ok (.global index)
  | _ => .error (.validation (.itemNotReference item))

/-- The offset of a segment as written. -/
def Offset.text : Offset → String
  | const value => s!"{value.toInt}i32"
  | global index => s!"{(Field.global index).onModule}.borrow().get_int()? as i32"

/-! ### Steps -/

/-- A step of the constructor. -/
inductive Step where
  /-- finds a module to import from -/
  | findProvider (n : Nat) (moduleName : String)
  /-- finds an import, whose field this is -/
  | resolve (field : Field) (provider : Nat) (item : Import)
  | newMemory (index : Nat) (limits : Limits)
  | newGlobal (index : Nat) (type : GlobalType)
  /-- gives a global its first value -/
  | initGlobal (index : Nat) (init : ConstExpr)
  | newTable (index : Nat) (limits : Limits)
  /-- builds the instance -/
  | build (inits : List FieldInit)
  /-- makes the instance known under its name -/
  | publish
  /-- gives a global a reference to a function as its first value -/
  | initFuncGlobal (index : Nat) (item : FuncItem)
  /-- fills the field of a passive element segment -/
  | keepElems (segment : Nat) (items : List ElemItem)
  /-- copies an active data segment -/
  | copyData (segment memory : Nat) (offset : Offset)
  /-- copies an active element segment -/
  | copyElems (table : Nat) (offset : Offset) (items : List ElemItem)
  /-- calls the start function -/
  | callStart (func : Nat) (own : Bool)
  /-- hands out the instance -/
  | done
  deriving DecidableEq

/-- Size bounds as arguments. -/
def boundsArgs (limits : Limits) : String :=
  match limits.max with
  | some max => s!"{limits.min}, Some({max})"
  | none => s!"{limits.min}, None"

/-- A constant as a dynamically typed value. -/
def initialValue : ConstExpr → String
  | .i32 value => s!"Value::I32({value.toInt}i32)"
  | .i64 value => s!"Value::I64({value.toInt}i64)"
  | .f32 bits => s!"Value::F32(f32::from_bits({Text.hexPadded 8 bits.toNat}))"
  | .f64 bits => s!"Value::F64(f64::from_bits({Text.hexPadded 16 bits.toNat}))"
  | .refNull ty => s!"{ty.wrapper}(None)"
  | .refFunc _ => "Value::FuncRef(None)"
  | .globalGet index => s!"{(Field.global index).name}.borrow().get()"

/-- The line that finds an import. -/
def resolveText (field : Field) (provider : Nat) (item : Import) : String :=
  let source := s!"&*{(Field.provider provider).name}"
  let names := Text.stringLiteral item.moduleName ++ ", " ++ Text.stringLiteral item.name
  let call :=
    match item.desc with
    | .func type => s!"resolve_func({source}, {names}, &TYPE_{type})"
    | .memory _ => s!"resolve_memory({source}, {names})"
    | .table _ => s!"resolve_table({source}, {names})"
    | .global _ => s!"resolve_global({source}, {names})"
  s!"let {field.name} = {call}?;"

/-- A container behind a shared cell. -/
def sharedCell (contents : String) : String :=
  s!"Rc::new(RefCell::new({contents}?))"

/-- Items between the brackets of a vector. -/
def itemsText (items : List ElemItem) : String :=
  s!"vec![{Text.commaSep (items.map ElemItem.text)}]"

/-- The step as lines. -/
def Step.layout : Step → List Text.Line
  | findProvider n moduleName =>
    let provider := s!"env.import({Text.stringLiteral moduleName})?"
    [.plain s!"let {(Field.provider n).name} = {provider};"]
  | resolve field provider item => [.plain (resolveText field provider item)]
  | newMemory index limits =>
    let cell := sharedCell s!"Memory::new({boundsArgs limits})"
    [.plain s!"let {(Field.memory index).name} = {cell};"]
  | newGlobal index type =>
    let args := Text.charLiteral type.ty.tag ++ ", " ++ flagText type.mutable
    let cell := sharedCell s!"Global::new({args})"
    [.plain s!"let {(Field.global index).name} = {cell};"]
  | initGlobal index init =>
    [.plain s!"{(Field.global index).name}.borrow_mut().set({initialValue init})?;"]
  | newTable index limits =>
    let cell := sharedCell s!"Table::new({boundsArgs limits})"
    [.plain s!"let {(Field.table index).name} = {cell};"]
  | build inits =>
    [.opening "let module = Rc::new_cyclic(|me| Module \x7b"] ++
      inits.map (fun f => .plain f.text) ++ [.closing "\x7d);"]
  | publish => [.plain "env.export(module.clone(), name);"]
  | initFuncGlobal index item =>
    [.plain s!"{(Field.global index).onModule}.borrow_mut().set(Value::FuncRef({item.text}))?;"]
  | keepElems segment items =>
    [.plain s!"*{(Field.elem segment).onModule}.borrow_mut() = {itemsText items};"]
  | copyData segment memory offset =>
    [.opening "\x7b",
      .plain s!"let offset: i32 = {offset.text};",
      .plain (s!"{(Field.memory memory).onModule}.borrow_mut()" ++
        s!".write(DATA_{segment}, ops::effective_address(offset, 0)?)?;"),
      .closing "\x7d"]
  | copyElems table offset items =>
    [.opening "\x7b",
      .plain s!"let offset: i32 = {offset.text};",
      .plain s!"let items: Vec<Option<FuncRef>> = {itemsText items};",
      .plain s!"{(Field.table table).onModule}.borrow_mut().overwrite(&items, offset as u32)?;",
      .closing "\x7d"]
  | callStart func own =>
    let call := if own then s!"module.fn_{func}()" else s!"module.fn_{func}.call(&[])"
    [.plain s!"{call}?;"]
  | done => [.plain "Ok(module)"]

/-- The steps that find the imports. -/
def Plan.resolveSteps (p : Plan) : Except Error (List Step) :=
  (importFields p.source).mapM fun i => do
    .ok (.resolve i.2 (← p.provider i.1.moduleName) i.1)

/-- The steps that make a global.  A reference to a function has to wait for the instance. -/
def stepsFor (g : GlobalDef × Nat) : List Step :=
  .newGlobal g.2 g.1.type ::
    match g.1.init with
    | .refFunc _ => []
    | init => [.initGlobal g.2 init]

/-- The steps that make the globals. -/
def globalSteps (m : Module) : List Step :=
  (m.globals.zipIdx (m.importCount .global)).flatMap stepsFor

/-- The steps for the globals that start with a reference to a function. -/
def funcGlobalSteps (m : Module) : List (GlobalDef × Nat) → Except Error (List Step)
  | [] => .ok []
  | (g, index) :: rest => do
    match g.init with
    | .refFunc func =>
      let item ← functionItem m func
      .ok (.initFuncGlobal index item :: (← funcGlobalSteps m rest))
    | _ => funcGlobalSteps m rest

/-- The steps for the passive element segments. -/
def passiveElemSteps (m : Module) : List (ElemSegment × Nat) → Except Error (List Step)
  | [] => .ok []
  | (segment, k) :: rest => do
    match segment.mode with
    | .passive =>
      let items ← segment.items.mapM (elemItem m)
      .ok (.keepElems k items :: (← passiveElemSteps m rest))
    | _ => passiveElemSteps m rest

/-- The steps for the active data segments. -/
def activeDataSteps : List (DataSegment × Nat) → Except Error (List Step)
  | [] => .ok []
  | (segment, k) :: rest => do
    match segment.mode with
    | .active memory offset =>
      let offset ← offsetOf offset
      .ok (.copyData k memory offset :: (← activeDataSteps rest))
    | .passive => activeDataSteps rest

/-- The steps for the active element segments. -/
def activeElemSteps (m : Module) : List ElemSegment → Except Error (List Step)
  | [] => .ok []
  | segment :: rest => do
    match segment.mode with
    | .active table offset =>
      let offset ← offsetOf offset
      let items ← segment.items.mapM (elemItem m)
      .ok (.copyElems table offset items :: (← activeElemSteps m rest))
    | _ => activeElemSteps m rest

/-- The call of the start function, if there is one. -/
def startSteps (m : Module) : Except Error (List Step) :=
  match m.start with
  | none => .ok []
  | some func => do
    match ← m.funcAt func with
    | .defined .. => .ok [.callStart func true]
    | .imported .. => .ok [.callStart func false]

/-- All steps of the constructor, in order. -/
def Plan.steps (p : Plan) : Except Error (List Step) := do
  let m := p.source
  let found := p.providers.zipIdx.map fun q => Step.findProvider q.2 q.1
  let resolved ← p.resolveSteps
  let memories := (m.memories.zipIdx (m.importCount .memory)).map fun q => Step.newMemory q.2 q.1
  let tables := (m.tables.zipIdx (m.importCount .table)).map fun q =>
    Step.newTable q.2 q.1.limits
  let funcGlobals ← funcGlobalSteps m (m.globals.zipIdx (m.importCount .global))
  let passive ← passiveElemSteps m m.elements.zipIdx
  let data ← activeDataSteps m.data.zipIdx
  let elems ← activeElemSteps m m.elements
  let start ← startSteps m
  .ok (found ++ resolved ++ memories ++ globalSteps m ++ tables ++
    [.build p.fieldInits, .publish] ++ funcGlobals ++ passive ++ data ++ elems ++ start ++
    [.done])

/-- The constructor as lines. -/
def constructorLayout (steps : List Step) : List Text.Line :=
  [.opening ("pub fn new(env: &mut Environment, name: &str) -> " ++
      "Result<Rc<Module>, InstantiationError> \x7b")] ++
    steps.flatMap Step.layout ++ [.closing "\x7d"]

end WasmAot.Artifact
