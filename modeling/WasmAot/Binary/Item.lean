/-
# Items of sections

The entries of the sections of a module: signatures, imports, tables, memories, globals, exports,
segments and function bodies.
-/
import WasmAot.Binary.Expr

namespace WasmAot.Binary

/-- The size bounds of a memory or a table. -/
def limits : Decoder Limits := do
  let offset ← position
  let flag ← byte
  match flag.toNat with
  | 0x00 =>
    let min ← u32
    return { min, max := none }
  | 0x01 =>
    let min ← u32
    let max ← u32
    return { min, max := some max }
  | _ => parseFault offset (.invalidLimits flag)

/-- The type of a table. -/
def tableType : Decoder TableType := do
  let elem ← refType
  let limits ← limits
  return { elem, limits }

/-- The type of a global. -/
def globalType : Decoder GlobalType := do
  let ty ← valType
  let offset ← position
  let flag ← byte
  match flag.toNat with
  | 0x00 => return { ty, mutable := false }
  | 0x01 => return { ty, mutable := true }
  | _ => parseFault offset (.invalidMutability flag)

/-- A signature. -/
def funcType : Decoder FuncType := do
  let offset ← position
  let form ← byte
  if form = 0x60 then
    let params ← vector valType
    let results ← vector valType
    return { params, results }
  else parseFault offset (.notAFuncType form)

/-- What is imported: its kind, then its type. -/
def importDesc : Decoder ImportDesc := do
  let offset ← position
  let b ← byte
  match ExternKind.ofByte? b with
  | some .func => return .func (← u32)
  | some .table => return .table (← tableType)
  | some .memory => return .memory (← limits)
  | some .global => return .global (← globalType)
  | none => parseFault offset (.invalidImportKind b)

/-- An import. -/
def importItem : Decoder Import := do
  let moduleName ← name
  let name ← name
  let desc ← importDesc
  return { moduleName, name, desc }

/-- A global and its initial value. -/
def globalDef : Decoder GlobalDef := do
  let type ← globalType
  let init ← constExpr
  return { type, init }

/-- An export. -/
def exportItem : Decoder Export := do
  let name ← name
  let offset ← position
  let b ← byte
  match ExternKind.ofByte? b with
  | some kind =>
    let index ← u32
    return { name, kind, index }
  | none => parseFault offset (.invalidExportKind b)

/-- The kind of an element segment that lists functions. -/
def elemKind : Decoder ValType := do
  let offset ← position
  let b ← byte
  if b = 0x00 then return .funcref else parseFault offset (.invalidElemKind b)

/-- A list of functions, as references to them. -/
def funcItems : Decoder (List ConstExpr) :=
  vector (return .refFunc (← u32))

/-- An element segment.  The flags tell whether it is active, whether it names its table and type,
and whether its items are functions or expressions. -/
def elemSegment : Decoder ElemSegment := do
  let start ← position
  let flags ← u32
  match flags with
  | 0 =>
    let offset ← constExpr
    let items ← funcItems
    return { ty := .funcref, mode := .active 0 offset, items }
  | 1 =>
    let ty ← elemKind
    let items ← funcItems
    return { ty, mode := .passive, items }
  | 2 =>
    let table ← u32
    let offset ← constExpr
    let ty ← elemKind
    let items ← funcItems
    return { ty, mode := .active table offset, items }
  | 3 =>
    let ty ← elemKind
    let items ← funcItems
    return { ty, mode := .declarative, items }
  | 4 =>
    let offset ← constExpr
    let items ← vector constExpr
    return { ty := .funcref, mode := .active 0 offset, items }
  | 5 =>
    let ty ← refType
    let items ← vector constExpr
    return { ty, mode := .passive, items }
  | 6 =>
    let table ← u32
    let offset ← constExpr
    let ty ← refType
    let items ← vector constExpr
    return { ty, mode := .active table offset, items }
  | 7 =>
    let ty ← refType
    let items ← vector constExpr
    return { ty, mode := .declarative, items }
  | _ => parseFault start (.invalidElemFlags flags)

/-- When a data segment is used. -/
def dataMode : Decoder DataMode := do
  let start ← position
  let flags ← u32
  match flags with
  | 0 => return .active 0 (← constExpr)
  | 1 => return .passive
  | 2 =>
    let memory ← u32
    let offset ← constExpr
    return .active memory offset
  | _ => parseFault start (.invalidDataFlags flags)

/-- A data segment. -/
def dataSegment : Decoder DataSegment := do
  let mode ← dataMode
  let length ← u32
  let bytes ← take length
  return { mode, bytes }

/-- The largest number of locals that a function may declare. -/
def maxLocals : Nat := 50000

/-- A group of locals of one type. -/
def localGroup : Decoder (Nat × ValType) := do
  let count ← u32
  let ty ← valType
  return (count, ty)

/-- The locals of a function, from groups of equal ones. -/
def localDecls : Decoder (List ValType) := do
  let offset ← position
  let groups ← vector localGroup
  let total := (groups.map Prod.fst).foldr (· + ·) 0
  if maxLocals < total then parseFault offset (.tooManyLocals total)
  else return groups.flatMap fun g => List.replicate g.1 g.2

/-- The body of a function of the given type. -/
def funcBody (type : Nat) : Decoder FuncDef :=
  sizePrefixed do
    let locals ← localDecls
    let body ← expr
    return { type, locals, body }

end WasmAot.Binary
