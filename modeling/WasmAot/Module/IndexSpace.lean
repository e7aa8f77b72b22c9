/-
# Index spaces

Functions, tables, memories and globals are numbered by kind: the imports of the kind in the order
in which they stand, then the module's own items.  The operations here turn an index into what it
stands for, or say that it is out of range.
-/
import WasmAot.Error

namespace WasmAot

/-- What an index into the functions stands for. -/
inductive FuncRefers where
  /-- an import, by its position among all imports, and the index of its type -/
  | imported (position : Nat) (item : Import)
  /-- a function of the module, by its position among them -/
  | defined (position : Nat) (func : FuncDef)

/-- Fails with an index out of range. -/
def outOfRange {α : Type} (space : IndexSpace) (index : Nat) : Except Error α :=
  .error (.validation (.outOfRange space index))

namespace Module

variable (m : Module)

/-- The imports of a kind, each with its position among all imports. -/
def importsOf (kind : ExternKind) : List (Nat × Import) :=
  (m.imports.zipIdx.filter fun p => p.1.desc.kind = kind).map fun p => (p.2, p.1)

/-- How many items of a kind are imported; the index of the first one that is not. -/
def importCount (kind : ExternKind) : Nat :=
  (m.importsOf kind).length

/-- How many items of a kind the module defines. -/
def numDefined : ExternKind → Nat
  | .func => m.functions.length
  | .table => m.tables.length
  | .memory => m.memories.length
  | .global => m.globals.length

/-- The size of the index space of a kind. -/
def count (kind : ExternKind) : Nat :=
  m.importCount kind + m.numDefined kind

/-- An entry of the list of types. -/
def typeAt (index : Nat) : Except Error FuncType :=
  match m.types[index]? with
  | some type => .ok type
  | none => outOfRange .type index

/-- What a function index stands for. -/
def funcAt (index : Nat) : Except Error FuncRefers :=
  match (m.importsOf .func)[index]? with
  | some (position, item) => .ok (.imported position item)
  | none =>
    let position := index - m.importCount .func
    match m.functions[position]? with
    | some func => .ok (.defined position func)
    | none => outOfRange .func index

/-- The index of the type of a function. -/
def typeIndexOfFunc (index : Nat) : Except Error Nat := do
  match ← m.funcAt index with
  | .imported _ item =>
    match item.desc with
    | .func type => .ok type
    | _ => outOfRange .func index
  | .defined _ func => .ok func.type

/-- The type of a function. -/
def typeOfFunc (index : Nat) : Except Error FuncType := do
  m.typeAt (← m.typeIndexOfFunc index)

/-- The types of the globals, in the order of their indices. -/
def globalTypes : List GlobalType :=
  (m.imports.filterMap fun i => match i.desc with | .global type => some type | _ => none) ++
    m.globals.map GlobalDef.type

/-- The type of a global. -/
def typeOfGlobal (index : Nat) : Except Error GlobalType :=
  match m.globalTypes[index]? with
  | some type => .ok type
  | none => outOfRange .global index

/-- The types of the tables, in the order of their indices. -/
def tableTypes : List TableType :=
  (m.imports.filterMap fun i => match i.desc with | .table type => some type | _ => none) ++
    m.tables

/-- The type of a table. -/
def typeOfTable (index : Nat) : Except Error TableType :=
  match m.tableTypes[index]? with
  | some type => .ok type
  | none => outOfRange .table index

/-- Fails unless there is a memory of this index. -/
def requireMemory (index : Nat) : Except Error Unit :=
  if index < m.count .memory then .ok () else outOfRange .memory index

/-- Fails unless there is an element segment of this index. -/
def requireElemSegment (index : Nat) : Except Error Unit :=
  if index < m.elements.length then .ok () else outOfRange .elemSegment index

/-- Fails unless there is a data segment of this index. -/
def requireDataSegment (index : Nat) : Except Error Unit :=
  if index < m.data.length then .ok () else outOfRange .dataSegment index

/-- Fails unless there is a table of this index, and it holds functions. -/
def requireFuncTable (index : Nat) : Except Error Unit := do
  let type ← m.typeOfTable index
  if type.elem = .funcref then .ok () else .error (.validation (.tableElement index type.elem))

/-- The parameters and results of a construct. -/
def signatureOf : BlockType → Except Error FuncType
  | .empty => .ok { params := [], results := [] }
  | .value ty => .ok { params := [], results := [ty] }
  | .indexed index => m.typeAt index

/-- The index of each import within its kind, in the order of the imports. -/
def indicesOfImports : List Nat :=
  go (fun _ => 0) m.imports
where
  /-- `seen` counts the imports of each kind so far. -/
  go (seen : ExternKind → Nat) : List Import → List Nat
    | [] => []
    | item :: rest =>
      let kind := item.desc.kind
      seen kind :: go (fun k => if k = kind then seen k + 1 else seen k) rest

/-- The indices of the items of a kind that the module defines itself. -/
def definedIndices (kind : ExternKind) : List Nat :=
  (List.range (m.numDefined kind)).map (m.importCount kind + ·)

end Module

end WasmAot
