/-
# What the binary format can express

Not every module can be written in the binary format.  Indices, counts and sizes are integers of 32
bits; where the format asks for a reference type there is no place for another; loads, stores and
operators are those that have an opcode; and a reader does not follow constructs or count locals
beyond a limit.  A module is encodable if it keeps to this.

The conditions are on the parts of a module, each by itself, except that the contents of a section
have to be of a size that can be written in front of them.
-/
import Mathlib.Algebra.Order.Ring.Int
import Mathlib.Tactic.Ring
import WasmAot.Binary.Item
import WasmAot.Proofs.Binary.Encoding
import WasmAot.Proofs.Validation.Typing

namespace WasmAot

/-- The number can be written as an index, count or size. -/
abbrev FitsU32 (n : Nat) : Prop :=
  n < 2 ^ 32

/-! ### Integers

What the readers of integers do, with the powers as the lemmas about powers have them. -/

namespace Binary

lemma unsignedFrom_succ (start bits room shift value : Nat) :
    unsignedFrom start bits (room + 1) shift value = (do
      let b ← byte
      let value := value + lebGroup b * 2 ^ shift
      if 2 ^ bits ≤ value then lexFault start .integerOverflow
      else if lebContinues b then unsignedFrom start bits room (shift + 7) value
      else return value % 2 ^ wordBits) := by
  simp only [unsignedFrom, Nat.shiftLeft_eq, Nat.one_mul]

lemma signedFrom_succ (start bits room shift value : Nat) :
    signedFrom start bits (room + 1) shift value = (do
      let b ← byte
      let value := value + lebGroup b * 2 ^ shift
      if lebContinues b then signedFrom start bits room (shift + 7) value
      else
        let v := signedValue (shift + 7) value
        if wordBits < bits then return v.bmod (2 ^ wordBits)
        else if fitsSigned bits v then return v
        else lexFault start .integerOverflow) := by
  simp only [signedFrom, Nat.shiftLeft_eq, Nat.one_mul]

lemma signedValue_eq (width n : Nat) :
    signedValue width n = if 2 * n < 2 ^ width then (n : Int) else n - 2 ^ width := by
  rw [signedValue, Nat.one_shiftLeft, Nat.cast_pow]
  rfl

lemma fitsSigned_iff {bits : Nat} {v : Int} :
    fitsSigned bits v = true ↔ -2 ^ (bits - 1) ≤ v ∧ v < 2 ^ (bits - 1) := by
  rw [fitsSigned, Nat.one_shiftLeft, Nat.cast_pow]
  simp

end Binary

/-! ### Instructions -/

/-- A signature of a construct that can be written. -/
def BlockType.Encodable : BlockType → Prop
  | indexed index => FitsU32 index
  | empty | value _ => True

/-- A static part of a memory access that can be written. -/
def MemArg.Encodable (arg : MemArg) : Prop :=
  FitsU32 arg.align ∧ FitsU32 arg.offset

mutual

/-- An instruction that can be written, with everything inside of it. -/
def Instr.Encodable : Instr → Prop
  | .block ty body | .loop ty body => ty.Encodable ∧ EncodableSeq body
  | .ifElse ty thenBody elseBody =>
    ty.Encodable ∧ EncodableSeq thenBody ∧ EncodableSeq elseBody
  | .br index | .brIf index | .call index | .refFunc index | .localGet index | .localSet index
  | .localTee index | .globalGet index | .globalSet index | .tableGet index | .tableSet index
  | .elemDrop index | .tableGrow index | .tableSize index | .tableFill index
  | .memoryInit index | .dataDrop index => FitsU32 index
  | .callIndirect first second | .tableInit first second | .tableCopy first second =>
    FitsU32 first ∧ FitsU32 second
  | .brTable targets default =>
    FitsU32 targets.length ∧ (∀ target ∈ targets, FitsU32 target) ∧ FitsU32 default
  | .refNull ty => ty.isRef
  | .load op arg => Binary.loadOpcode op ≠ 0x00 ∧ arg.Encodable
  | .store op arg => Binary.storeOpcode op ≠ 0x00 ∧ arg.Encodable
  | .compare ty op => op.definedFor ty
  | .unary ty op => op.definedFor ty
  | .binary ty op => op.definedFor ty
  | .unreachable | .nop | .ret | .refIsNull | .drop | .select _ | .memorySize | .memoryGrow
  | .memoryCopy | .memoryFill | .i32Const _ | .i64Const _ | .f32Const _ | .f64Const _
  | .convert _ => True

/-- A sequence of instructions that can be written. -/
def EncodableSeq : List Instr → Prop
  | [] => True
  | instr :: rest => instr.Encodable ∧ EncodableSeq rest

end

/-- A constant expression that can be written. -/
def ConstExpr.Encodable (c : ConstExpr) : Prop :=
  (Binary.constInstr c).Encodable

/-! ### Items of sections -/

/-- Size bounds that can be written. -/
def Limits.Encodable (limits : Limits) : Prop :=
  FitsU32 limits.min ∧ ∀ max ∈ limits.max, FitsU32 max

/-- A type of a table that can be written. -/
def TableType.Encodable (type : TableType) : Prop :=
  type.elem.isRef ∧ type.limits.Encodable

/-- A signature that can be written. -/
def FuncType.Encodable (type : FuncType) : Prop :=
  FitsU32 type.params.length ∧ FitsU32 type.results.length

/-- An imported item that can be written. -/
def ImportDesc.Encodable : ImportDesc → Prop
  | func type => FitsU32 type
  | table type => type.Encodable
  | memory limits => limits.Encodable
  | global _ => True

/-- An import that can be written. -/
def Import.Encodable (item : Import) : Prop :=
  FitsU32 item.moduleName.utf8ByteSize ∧ FitsU32 item.name.utf8ByteSize ∧ item.desc.Encodable

/-- An export that can be written. -/
def Export.Encodable (item : Export) : Prop :=
  FitsU32 item.name.utf8ByteSize ∧ FitsU32 item.index

/-- A use of an element segment that can be written. -/
def ElemMode.Encodable : ElemMode → Prop
  | active table offset => FitsU32 table ∧ offset.Encodable
  | passive | declarative => True

/-- An element segment that can be written. -/
structure ElemSegment.Encodable (segment : ElemSegment) : Prop where
  ty : segment.ty.isRef
  mode : segment.mode.Encodable
  count : FitsU32 segment.items.length
  items : ∀ item ∈ segment.items, item.Encodable

/-- A use of a data segment that can be written. -/
def DataMode.Encodable : DataMode → Prop
  | active memory offset => FitsU32 memory ∧ offset.Encodable
  | passive => True

/-- A data segment that can be written. -/
def DataSegment.Encodable (segment : DataSegment) : Prop :=
  segment.mode.Encodable ∧ FitsU32 segment.bytes.length

/-- A function that can be written. -/
structure FuncDef.Encodable (func : FuncDef) : Prop where
  type : FitsU32 func.type
  locals : func.locals.length ≤ Binary.maxLocals
  nesting : nestingOf func.body ≤ maxNesting
  body : EncodableSeq func.body

/-! ### Modules -/

/-- A module that can be written. -/
structure Module.Encodable (m : Module) : Prop where
  types : ∀ type ∈ m.types, type.Encodable
  imports : ∀ item ∈ m.imports, item.Encodable
  functions : ∀ func ∈ m.functions, func.Encodable
  tables : ∀ type ∈ m.tables, type.Encodable
  memories : ∀ limits ∈ m.memories, limits.Encodable
  globals : ∀ item ∈ m.globals, item.init.Encodable
  exports : ∀ item ∈ m.exports, item.Encodable
  start : ∀ func ∈ m.start, FitsU32 func
  elements : ∀ segment ∈ m.elements, segment.Encodable
  data : ∀ segment ∈ m.data, segment.Encodable
  /-- if the number of data segments is announced, it is right -/
  dataCount : ∀ count ∈ m.dataCount, count = m.data.length
  /-- the sizes of the sections can be written -/
  sizes : ∀ entry ∈ Binary.sections m, FitsU32 entry.2.length

end WasmAot
