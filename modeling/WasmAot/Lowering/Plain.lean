/-
# Instructions without control

Each of them takes its operands off the stack and either pushes an atom, binds its result to a new
variable or adds an operation for its effect.  Indices are checked against the module first.
-/
import WasmAot.Lowering.Structured

namespace WasmAot.Lowering

open Code

/-- The memory that instructions work on. -/
def theMemory : Place := .field (.memory 0)

/-- Binds an expression and pushes the variable. -/
def result (ty : ValType) (value : Expr) : Build Unit := do
  let _ ← pushBinding ty value

/-- Takes off three integers: destination, source or value, and length. -/
def popThree : Build (Atom × Atom × Atom) := do
  let len ← popAtom .i32
  let src ← popAtom .i32
  let dst ← popAtom .i32
  return (dst, src, len)

/-! ### Calls -/

/-- Binds the results of a call of a function of the module. -/
def pushResults (results : List ValType) (call : Expr) : Build Unit := do
  match results with
  | [] => emit (.perform (.call call))
  | [ty] => result ty call
  | _ =>
    let vars ← push results
    emit (.bindTuple vars results call)

/-- Binds the values of a dynamically typed call one by one. -/
def unpackResults (values : Name) : Nat → List ValType → Build Unit
  | _, [] => return ()
  | position, ty :: types => do
    result ty (.unpack values position ty)
    unpackResults values (position + 1) types

/-- Binds the results of a dynamically typed call. -/
def bindDynamicResults (results : List ValType) (call : Expr) : Build Unit := do
  if results.isEmpty then emit (.perform (.call call))
  else
    let values ← newVar
    emit (.bindDynamic values call)
    unpackResults values 0 results

/-- A call by index. -/
def lowerCall (m : Module) (func : Nat) : Build Unit := do
  let type ← require (m.typeOfFunc func)
  let args ← popAtoms type.params
  match ← require (m.funcAt func) with
  | .defined .. => pushResults type.results (.callOwn func args)
  | .imported .. => bindDynamicResults type.results (.callImported func (type.params.zip args))

/-- A call through a table. -/
def lowerCallIndirect (m : Module) (typeIndex table : Nat) : Build Unit := do
  let type ← require (m.typeAt typeIndex)
  require (m.requireFuncTable table)
  let slot ← popAtom .i32
  let args ← popAtoms type.params
  let callee ← newVar
  emit (.bindDynamic callee (.slotFunc table slot))
  emit (.perform (.requireSignature callee typeIndex))
  bindDynamicResults type.results (.callRef callee (type.params.zip args))

/-! ### References and choice -/

/-- A null reference. -/
def lowerRefNull (ty : ValType) : Build Unit :=
  if ty.isRef then result ty .null else throw (.validation (.nullOf ty))

/-- A test for null. -/
def lowerRefIsNull : Build Unit := do
  let op ← popOperand
  if op.ty.isRef then result .i32 (.isNull op.atom)
  else throw (.typeMismatch (.reference op.ty))

/-- A reference to a function. -/
def lowerRefFunc (m : Module) (func : Nat) : Build Unit := do
  match ← require (m.funcAt func) with
  | .defined .. => result .funcref (.ownFuncRef func)
  | .imported .. => result .funcref (.importedFuncRef func)

/-- A choice between two operands of one type. -/
def lowerSelect (annotated : Option ValType) : Build Unit := do
  let cond ← popAtom .i32
  match ← pop 2 with
  | [a, b] =>
    let expected := annotated.getD a.ty
    if a.ty = expected && b.ty = expected then result a.ty (.select cond a.atom b.atom)
    else throw (.typeMismatch (.operands [expected, expected] [a.ty, b.ty]))
  | _ => throw (.stackUnderflow 2 0)

/-! ### Globals and tables -/

/-- A read of a global. -/
def lowerGlobalGet (m : Module) (index : Nat) : Build Unit := do
  let type ← require (m.typeOfGlobal index)
  result type.ty (.globalGet index type.ty)

/-- A write to a global. -/
def lowerGlobalSet (m : Module) (index : Nat) : Build Unit := do
  let type ← require (m.typeOfGlobal index)
  if type.mutable then
    let value ← popAtom type.ty
    emit (.perform (.globalSet index type.ty value))
  else throw (.validation (.immutableGlobal index))

/-- A read of a table slot. -/
def lowerTableGet (m : Module) (table : Nat) : Build Unit := do
  require (m.requireFuncTable table)
  let index ← popAtom .i32
  result .funcref (.tableGet table index)

/-- A write to a table slot. -/
def lowerTableSet (m : Module) (table : Nat) : Build Unit := do
  require (m.requireFuncTable table)
  let value ← popAtom .funcref
  let index ← popAtom .i32
  emit (.perform (.tableSet table index value))

/-- The size of a table. -/
def lowerTableSize (m : Module) (table : Nat) : Build Unit := do
  require (m.requireFuncTable table)
  result .i32 (.tableSize table)

/-- Growth of a table. -/
def lowerTableGrow (m : Module) (table : Nat) : Build Unit := do
  require (m.requireFuncTable table)
  let delta ← popAtom .i32
  let init ← popAtom .funcref
  result .i32 (.tableGrow table delta init)

/-- One value for a range of slots. -/
def lowerTableFill (m : Module) (table : Nat) : Build Unit := do
  require (m.requireFuncTable table)
  let len ← popAtom .i32
  let value ← popAtom .funcref
  let offset ← popAtom .i32
  emit (.perform (.tableFill table len value offset))

/-- A copy of slots.  Two imported tables can be one object, which is only known when the code
runs. -/
def lowerTableCopy (m : Module) (dstTable srcTable : Nat) : Build Unit := do
  require (m.requireFuncTable dstTable)
  require (m.requireFuncTable srcTable)
  let (dst, src, len) ← popThree
  let within := Line.perform (.tableCopyWithin dstTable src dst len)
  if dstTable = srcTable then emit within
  else
    emit (.openIfSame srcTable dstTable)
    emit within
    emit .openElse
    emit (.perform (.tableCopy srcTable dstTable src dst len))
    emit .close

/-- A copy of references from a segment. -/
def lowerTableInit (m : Module) (segment table : Nat) : Build Unit := do
  require (m.requireFuncTable table)
  require (m.requireElemSegment segment)
  let (dst, src, len) ← popThree
  emit (.perform (.tableInit table segment src dst len))

/-- The end of an element segment. -/
def lowerElemDrop (m : Module) (segment : Nat) : Build Unit := do
  require (m.requireElemSegment segment)
  emit (.perform (.elemDrop segment))

/-! ### Memory -/

/-- A load. -/
def lowerLoad (m : Module) (op : LoadOp) (arg : MemArg) : Build Unit := do
  require (m.requireMemory 0)
  let addr ← popAtom .i32
  result op.ty (.load theMemory op arg.offset addr)

/-- A store. -/
def lowerStore (m : Module) (op : StoreOp) (arg : MemArg) : Build Unit := do
  require (m.requireMemory 0)
  let value ← popAtom op.ty
  let addr ← popAtom .i32
  emit (.perform (.store theMemory op arg.offset addr value))

/-- The size of the memory. -/
def lowerMemorySize (m : Module) : Build Unit := do
  require (m.requireMemory 0)
  result .i32 (.memorySize theMemory)

/-- Growth of the memory. -/
def lowerMemoryGrow (m : Module) : Build Unit := do
  require (m.requireMemory 0)
  let delta ← popAtom .i32
  result .i32 (.memoryGrow theMemory delta)

/-- A copy of bytes from a segment. -/
def lowerMemoryInit (m : Module) (segment : Nat) : Build Unit := do
  require (m.requireMemory 0)
  require (m.requireDataSegment segment)
  let (dst, src, len) ← popThree
  emit (.perform (.memoryInit theMemory segment src dst len))

/-- The end of a data segment. -/
def lowerDataDrop (m : Module) (segment : Nat) : Build Unit := do
  require (m.requireDataSegment segment)
  emit (.perform (.dataDrop segment))

/-- A copy of bytes. -/
def lowerMemoryCopy (m : Module) : Build Unit := do
  require (m.requireMemory 0)
  let (dst, src, len) ← popThree
  emit (.perform (.memoryCopy theMemory src dst len))

/-- One byte for a range of addresses. -/
def lowerMemoryFill (m : Module) : Build Unit := do
  require (m.requireMemory 0)
  let (dst, value, len) ← popThree
  emit (.perform (.memoryFill theMemory dst value len))

/-! ### Numbers -/

/-- A comparison as an expression, if it is defined for the type. -/
def compareExpr (ty : ValType) (op : CmpOp) (a b : Atom) : Except Error Expr :=
  if op.definedFor ty then .ok (.compare ty op a b) else .error (.validation (.comparison op ty))

/-- A unary operation as an expression, if it is defined for the type. -/
def unaryExpr (ty : ValType) (op : UnOp) (a : Atom) : Except Error Expr :=
  if op.definedFor ty then .ok (.unary ty op a) else .error (.validation (.unaryOperator op ty))

/-- A binary operation as an expression, if it is defined for the type. -/
def binaryExpr (ty : ValType) (op : BinOp) (a b : Atom) : Except Error Expr :=
  if op.definedFor ty then .ok (.binary ty op a b)
  else .error (.validation (.binaryOperator op ty))

/-- A comparison. -/
def lowerCompare (ty : ValType) (op : CmpOp) : Build Unit := do
  let b ← popAtom ty
  let a ← popAtom ty
  result .i32 (← require (compareExpr ty op a b))

/-- A unary operation. -/
def lowerUnary (ty : ValType) (op : UnOp) : Build Unit := do
  let a ← popAtom ty
  result (op.resultType ty) (← require (unaryExpr ty op a))

/-- A binary operation. -/
def lowerBinary (ty : ValType) (op : BinOp) : Build Unit := do
  let b ← popAtom ty
  let a ← popAtom ty
  result ty (← require (binaryExpr ty op a b))

/-- A conversion. -/
def lowerConvert (op : CvtOp) : Build Unit := do
  let a ← popAtom op.source
  result op.target (.convert op a)

/-- An instruction that owns no other instructions. -/
def lowerSimple (m : Module) : Instr → Build Unit
  | .unreachable => lowerUnreachable
  | .nop | .block .. | .loop .. | .ifElse .. => return ()
  | .br depth => lowerBr depth
  | .brIf depth => lowerBrIf depth
  | .brTable targets default => lowerBrTable targets default
  | .ret => lowerReturn
  | .call func => lowerCall m func
  | .callIndirect type table => lowerCallIndirect m type table
  | .refNull ty => lowerRefNull ty
  | .refIsNull => lowerRefIsNull
  | .refFunc func => lowerRefFunc m func
  | .drop => do let _ ← popOperand
  | .select ty => lowerSelect ty
  | .localGet index => getLocal index
  | .localSet index => do let _ ← setLocal index
  | .localTee index => teeLocal index
  | .globalGet index => lowerGlobalGet m index
  | .globalSet index => lowerGlobalSet m index
  | .tableGet table => lowerTableGet m table
  | .tableSet table => lowerTableSet m table
  | .tableInit segment table => lowerTableInit m segment table
  | .elemDrop segment => lowerElemDrop m segment
  | .tableCopy dst src => lowerTableCopy m dst src
  | .tableGrow table => lowerTableGrow m table
  | .tableSize table => lowerTableSize m table
  | .tableFill table => lowerTableFill m table
  | .load op arg => lowerLoad m op arg
  | .store op arg => lowerStore m op arg
  | .memorySize => lowerMemorySize m
  | .memoryGrow => lowerMemoryGrow m
  | .memoryInit segment => lowerMemoryInit m segment
  | .dataDrop segment => lowerDataDrop m segment
  | .memoryCopy => lowerMemoryCopy m
  | .memoryFill => lowerMemoryFill m
  | .i32Const value => pushConst (.i32 value) .i32
  | .i64Const value => pushConst (.i64 value) .i64
  | .f32Const bits => pushConst (.f32 bits) .f32
  | .f64Const bits => pushConst (.f64 bits) .f64
  | .compare ty op => lowerCompare ty op
  | .unary ty op => lowerUnary ty op
  | .binary ty op => lowerBinary ty op
  | .convert op => lowerConvert op

end WasmAot.Lowering
