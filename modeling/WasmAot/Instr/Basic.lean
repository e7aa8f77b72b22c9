/-
# Instructions

A function body is a list of instruction trees: `block`, `loop` and `ifElse` own the bodies nested in
them, and a branch names its target by the number of constructs that lie between.  Indices are
natural numbers, integer constants are words and float constants bit patterns.
-/
import WasmAot.Instr.Operator

namespace WasmAot

/-- The declared signature of a construct. -/
inductive BlockType where
  /-- no parameters and no results -/
  | empty
  /-- one result -/
  | value (ty : ValType)
  /-- an entry of the module's list of types -/
  | indexed (index : Nat)
  deriving DecidableEq

/-- The static part of a memory access; the alignment is a hint without effect. -/
structure MemArg where
  align : Nat
  offset : Nat
  deriving DecidableEq

/-- A load: the type it produces, the bits it reads and how it extends them. -/
structure LoadOp where
  ty : ValType
  bits : Nat
  signed : Bool
  deriving DecidableEq

/-- A store: the type it takes and the bits it writes. -/
structure StoreOp where
  ty : ValType
  bits : Nat
  deriving DecidableEq

/-- The instructions, by family. -/
inductive Instr where
  -- control
  | unreachable
  | nop
  | block (ty : BlockType) (body : List Instr)
  | loop (ty : BlockType) (body : List Instr)
  | ifElse (ty : BlockType) (thenBody elseBody : List Instr)
  | br (depth : Nat)
  | brIf (depth : Nat)
  | brTable (targets : List Nat) (default : Nat)
  | ret
  | call (func : Nat)
  | callIndirect (type table : Nat)
  -- references
  | refNull (ty : ValType)
  | refIsNull
  | refFunc (func : Nat)
  -- parametric
  | drop
  | select (ty : Option ValType)
  -- variables
  | localGet (index : Nat)
  | localSet (index : Nat)
  | localTee (index : Nat)
  | globalGet (index : Nat)
  | globalSet (index : Nat)
  -- tables
  | tableGet (table : Nat)
  | tableSet (table : Nat)
  | tableInit (segment table : Nat)
  | elemDrop (segment : Nat)
  | tableCopy (dst src : Nat)
  | tableGrow (table : Nat)
  | tableSize (table : Nat)
  | tableFill (table : Nat)
  -- memory
  | load (op : LoadOp) (arg : MemArg)
  | store (op : StoreOp) (arg : MemArg)
  | memorySize
  | memoryGrow
  | memoryInit (segment : Nat)
  | dataDrop (segment : Nat)
  | memoryCopy
  | memoryFill
  -- numbers
  | i32Const (value : BitVec 32)
  | i64Const (value : BitVec 64)
  | f32Const (bits : BitVec 32)
  | f64Const (bits : BitVec 64)
  | compare (ty : ValType) (op : CmpOp)
  | unary (ty : ValType) (op : UnOp)
  | binary (ty : ValType) (op : BinOp)
  | convert (op : CvtOp)

namespace Instr

/-- Control never reaches the instruction after this one. -/
def isTransfer : Instr → Bool
  | br _ | brTable .. | ret | unreachable => true
  | _ => false

end Instr

end WasmAot
