/-
# Modules

A decoded module: its types, what it imports, what it defines and what it exports.  Imports of a
kind come first in the index space of that kind, then the items that the module defines itself.
-/
import WasmAot.Instr.Basic

namespace WasmAot

/-- Parameters and results of a function or of a construct. -/
structure FuncType where
  params : List ValType
  results : List ValType
  deriving DecidableEq

/-- Size bounds of a memory (in pages) or of a table (in entries). -/
structure Limits where
  min : Nat
  max : Option Nat
  deriving DecidableEq

/-- A table: what it holds, and how much. -/
structure TableType where
  elem : ValType
  limits : Limits
  deriving DecidableEq

/-- A global: the type of its value, and whether it may be written. -/
structure GlobalType where
  ty : ValType
  mutable : Bool
  deriving DecidableEq

/-- A constant expression: the initial value of a global, the offset of a segment or an item of an
element segment.  Floats are bit patterns. -/
inductive ConstExpr where
  | i32 (value : BitVec 32)
  | i64 (value : BitVec 64)
  | f32 (bits : BitVec 32)
  | f64 (bits : BitVec 64)
  | refNull (ty : ValType)
  | refFunc (func : Nat)
  | globalGet (index : Nat)
  deriving DecidableEq

/-- The expression in diagnostics: its kind, and its argument in parentheses. -/
def ConstExpr.describe : ConstExpr → String
  | i32 v => s!"I32({v.toInt})"
  | i64 v => s!"I64({v.toInt})"
  | f32 bits => s!"F32({bits.toNat})"
  | f64 bits => s!"F64({bits.toNat})"
  | refNull ty => s!"RefNull({ty.variantName})"
  | refFunc func => s!"RefFunc({func})"
  | globalGet index => s!"GlobalGet({index})"

/-- The kinds of items that cross module boundaries. -/
inductive ExternKind where
  | func
  | table
  | memory
  | global
  deriving DecidableEq

namespace ExternKind

/-- The name used in diagnostics. -/
def name : ExternKind → String
  | func => "Func"
  | table => "Table"
  | memory => "Memory"
  | global => "Global"

/-- The word for the kind, in messages and in the emitted source. -/
def word : ExternKind → String
  | func => "func"
  | table => "table"
  | memory => "memory"
  | global => "global"

/-- The byte of the binary format. -/
def toByte : ExternKind → UInt8
  | func => 0x00
  | table => 0x01
  | memory => 0x02
  | global => 0x03

/-- The kind that a byte encodes. -/
def ofByte? (byte : UInt8) : Option ExternKind :=
  [func, table, memory, global].find? fun k => k.toByte = byte

end ExternKind

/-- What is imported; a function by the index of its type. -/
inductive ImportDesc where
  | func (type : Nat)
  | table (type : TableType)
  | memory (limits : Limits)
  | global (type : GlobalType)
  deriving DecidableEq

/-- The kind of what is imported. -/
def ImportDesc.kind : ImportDesc → ExternKind
  | func _ => .func
  | table _ => .table
  | memory _ => .memory
  | global _ => .global

/-- An import, by the name of the exporting module and the name of the export. -/
structure Import where
  moduleName : String
  name : String
  desc : ImportDesc
  deriving DecidableEq

/-- An export of an item by its index. -/
structure Export where
  name : String
  kind : ExternKind
  index : Nat
  deriving DecidableEq

/-- A function of the module: the index of its type, its locals beyond the parameters, its body. -/
structure FuncDef where
  type : Nat
  locals : List ValType
  body : List Instr

/-- A global of the module and its initial value. -/
structure GlobalDef where
  type : GlobalType
  init : ConstExpr
  deriving DecidableEq

/-- When the items of an element segment are used. -/
inductive ElemMode where
  /-- copied into a table at instantiation -/
  | active (table : Nat) (offset : ConstExpr)
  /-- kept for `table.init` -/
  | passive
  /-- only there to declare references -/
  | declarative
  deriving DecidableEq

/-- A list of references to fill tables with. -/
structure ElemSegment where
  ty : ValType
  mode : ElemMode
  items : List ConstExpr
  deriving DecidableEq

/-- When the bytes of a data segment are used. -/
inductive DataMode where
  /-- copied into a memory at instantiation -/
  | active (memory : Nat) (offset : ConstExpr)
  /-- kept for `memory.init` -/
  | passive
  deriving DecidableEq

/-- A list of bytes to fill memories with. -/
structure DataSegment where
  mode : DataMode
  bytes : List UInt8
  deriving DecidableEq

/-- A decoded module. -/
structure Module where
  types : List FuncType := []
  imports : List Import := []
  functions : List FuncDef := []
  tables : List TableType := []
  memories : List Limits := []
  globals : List GlobalDef := []
  exports : List Export := []
  start : Option Nat := none
  elements : List ElemSegment := []
  data : List DataSegment := []
  dataCount : Option Nat := none

/-- The deepest nesting of constructs in a function body. -/
def maxNesting : Nat := 512

end WasmAot
