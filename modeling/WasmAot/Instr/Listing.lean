/-
# Listings of instructions

A body as a flat list of lines, one for each instruction: its name and its arguments with single
blanks between them.  A construct spans several lines and ends with `End`; the arms of an `If` are
parted by `Else`, which is left out if there is nothing behind it.
-/
import WasmAot.Module.Basic

namespace WasmAot

namespace Listing

/-! ### Writing -/

/-- The signature of a construct: `empty`, a type, or the index of one behind `#`. -/
def blockTypeWord : BlockType → String
  | .empty => "empty"
  | .value ty => ty.name
  | .indexed index => s!"#{index}"

/-- The name of an instruction that is no construct, and its arguments. -/
def words : Instr → List String
  | .unreachable => ["Unreachable"]
  | .nop => ["Nop"]
  | .br depth => ["Br", toString depth]
  | .brIf depth => ["BrIf", toString depth]
  | .brTable targets default => "BrTable" :: targets.map toString ++ ["|", toString default]
  | .ret => ["Return"]
  | .call func => ["Call", toString func]
  | .callIndirect type table => ["CallIndirect", toString type, toString table]
  | .refNull ty => ["RefNull", ty.name]
  | .refIsNull => ["RefIsNull"]
  | .refFunc func => ["RefFunc", toString func]
  | .drop => ["Drop"]
  | .select none => ["Select"]
  | .select (some ty) => ["Select", ty.name]
  | .localGet index => ["LocalGet", toString index]
  | .localSet index => ["LocalSet", toString index]
  | .localTee index => ["LocalTee", toString index]
  | .globalGet index => ["GlobalGet", toString index]
  | .globalSet index => ["GlobalSet", toString index]
  | .tableGet table => ["TableGet", toString table]
  | .tableSet table => ["TableSet", toString table]
  | .tableInit segment table => ["TableInit", toString segment, toString table]
  | .elemDrop segment => ["ElemDrop", toString segment]
  | .tableCopy dst src => ["TableCopy", toString dst, toString src]
  | .tableGrow table => ["TableGrow", toString table]
  | .tableSize table => ["TableSize", toString table]
  | .tableFill table => ["TableFill", toString table]
  | .load op arg =>
    ["Load", op.ty.name, toString op.bits, if op.signed then "s" else "u", toString arg.align,
      toString arg.offset]
  | .store op arg =>
    ["Store", op.ty.name, toString op.bits, toString arg.align, toString arg.offset]
  | .memorySize => ["MemorySize"]
  | .memoryGrow => ["MemoryGrow"]
  | .memoryInit segment => ["MemoryInit", toString segment]
  | .dataDrop segment => ["DataDrop", toString segment]
  | .memoryCopy => ["MemoryCopy"]
  | .memoryFill => ["MemoryFill"]
  | .i32Const value => ["I32Const", toString value.toInt]
  | .i64Const value => ["I64Const", toString value.toInt]
  | .f32Const bits => ["F32Const", Text.hexPadded 8 bits.toNat]
  | .f64Const bits => ["F64Const", Text.hexPadded 16 bits.toNat]
  | .compare ty op => ["Compare", ty.name, op.name]
  | .unary ty op => ["Unary", ty.name, op.name]
  | .binary ty op => ["Binary", ty.name, op.name]
  | .convert op => ["Convert", op.name]
  | .block .. | .loop .. | .ifElse .. => []

/-- The words as one line. -/
def line (words : List String) : String :=
  " ".intercalate words

mutual

/-- The lines of an instruction. -/
def instrLines : Instr → List String
  | .block ty body => line ["Block", blockTypeWord ty] :: bodyLines body ++ ["End"]
  | .loop ty body => line ["Loop", blockTypeWord ty] :: bodyLines body ++ ["End"]
  | .ifElse ty thenBody elseBody =>
    let second := bodyLines elseBody
    line ["If", blockTypeWord ty] :: bodyLines thenBody ++
      (if second.isEmpty then [] else "Else" :: second) ++ ["End"]
  | i => [line (words i)]

/-- The lines of a body. -/
def bodyLines : List Instr → List String
  | [] => []
  | i :: rest => instrLines i ++ bodyLines rest

end

/-- A constant expression as one line. -/
def constLine : ConstExpr → String
  | .i32 value => line ["I32", toString value.toInt]
  | .i64 value => line ["I64", toString value.toInt]
  | .f32 bits => line ["F32", Text.hexPadded 8 bits.toNat]
  | .f64 bits => line ["F64", Text.hexPadded 16 bits.toNat]
  | .refNull ty => line ["RefNull", ty.name]
  | .refFunc func => line ["RefFunc", toString func]
  | .globalGet index => line ["GlobalGet", toString index]

/-! ### Reading -/

/-- The member of a list with the given name. -/
def named {α : Type} (all : List α) (name : α → String) (word : String) : Option α :=
  all.find? fun a => name a == word

/-- The type of a name. -/
def valType (word : String) : Option ValType :=
  named ValType.all ValType.name word

/-- An index, a count or a size. -/
def number (word : String) : Option Nat :=
  word.toNat?

/-- An integer as a word of the width. -/
def integer (width : Nat) (word : String) : Option (BitVec width) :=
  word.toInt?.map (BitVec.ofInt width)

/-- The value of a hexadecimal digit. -/
def hexDigit (c : Char) : Option Nat :=
  "0123456789abcdef".toList.findIdx? (· == c)

/-- A number of hexadecimal digits. -/
def hexNumber (digits : List Char) : Option Nat :=
  digits.foldlM (fun n c => (hexDigit c).map (16 * n + ·)) 0

/-- A bit pattern behind `0x`. -/
def pattern (width : Nat) (word : String) : Option (BitVec width) :=
  match word.toList with
  | '0' :: 'x' :: digits => (hexNumber digits).map (BitVec.ofNat width)
  | _ => none

/-- The signature of a construct. -/
def blockType (word : String) : Option BlockType :=
  match word.toList with
  | ['e', 'm', 'p', 't', 'y'] => some .empty
  | '#' :: digits => (number (String.ofList digits)).map .indexed
  | _ => (valType word).map .value

/-- The targets of a branch table and, behind the bar, its default. -/
def branchTable (args : List String) : Option Instr := do
  let targets ← (args.takeWhile (· != "|")).mapM number
  match args.dropWhile (· != "|") with
  | [_, default] => return .brTable targets (← number default)
  | _ => none

/-- An instruction with up to two indices as arguments. -/
def indexed (name : String) (args : List Nat) : Option Instr :=
  match name, args with
  | "Unreachable", [] => some .unreachable
  | "Nop", [] => some .nop
  | "Return", [] => some .ret
  | "RefIsNull", [] => some .refIsNull
  | "Drop", [] => some .drop
  | "Select", [] => some (.select none)
  | "MemorySize", [] => some .memorySize
  | "MemoryGrow", [] => some .memoryGrow
  | "MemoryCopy", [] => some .memoryCopy
  | "MemoryFill", [] => some .memoryFill
  | "Br", [depth] => some (.br depth)
  | "BrIf", [depth] => some (.brIf depth)
  | "Call", [func] => some (.call func)
  | "RefFunc", [func] => some (.refFunc func)
  | "LocalGet", [index] => some (.localGet index)
  | "LocalSet", [index] => some (.localSet index)
  | "LocalTee", [index] => some (.localTee index)
  | "GlobalGet", [index] => some (.globalGet index)
  | "GlobalSet", [index] => some (.globalSet index)
  | "TableGet", [table] => some (.tableGet table)
  | "TableSet", [table] => some (.tableSet table)
  | "ElemDrop", [segment] => some (.elemDrop segment)
  | "TableGrow", [table] => some (.tableGrow table)
  | "TableSize", [table] => some (.tableSize table)
  | "TableFill", [table] => some (.tableFill table)
  | "MemoryInit", [segment] => some (.memoryInit segment)
  | "DataDrop", [segment] => some (.dataDrop segment)
  | "CallIndirect", [type, table] => some (.callIndirect type table)
  | "TableInit", [segment, table] => some (.tableInit segment table)
  | "TableCopy", [dst, src] => some (.tableCopy dst src)
  | _, _ => none

/-- An instruction that is no construct, from its name and its arguments. -/
def plain : List String → Option Instr
  | "BrTable" :: args => branchTable args
  | ["RefNull", ty] => (valType ty).map .refNull
  | ["Select", ty] => (valType ty).map (.select ∘ some)
  | ["Load", ty, bits, sign, align, offset] => do
    return .load { ty := ← valType ty, bits := ← number bits, signed := sign == "s" }
      { align := ← number align, offset := ← number offset }
  | ["Store", ty, bits, align, offset] => do
    return .store { ty := ← valType ty, bits := ← number bits }
      { align := ← number align, offset := ← number offset }
  | ["I32Const", value] => (integer 32 value).map .i32Const
  | ["I64Const", value] => (integer 64 value).map .i64Const
  | ["F32Const", bits] => (pattern 32 bits).map .f32Const
  | ["F64Const", bits] => (pattern 64 bits).map .f64Const
  | ["Compare", ty, op] => do
    return .compare (← valType ty) (← named CmpOp.all CmpOp.name op)
  | ["Unary", ty, op] => do return .unary (← valType ty) (← named UnOp.all UnOp.name op)
  | ["Binary", ty, op] => do return .binary (← valType ty) (← named BinOp.all BinOp.name op)
  | ["Convert", op] => (named CvtOp.all CvtOp.name op).map .convert
  | name :: args => do indexed name (← args.mapM number)
  | [] => none

/-- The line that opened a construct. -/
inductive Opener where
  | block
  | loop
  | ifThen
  /-- the second arm, behind the body of the first -/
  | ifElse (thenBody : List Instr)

/-- A construct whose `End` is still to come. -/
structure Pending where
  opener : Opener
  ty : BlockType
  /-- the instructions in front of the construct, last first -/
  before : List Instr

/-- The construct with its last body. -/
def Pending.close (p : Pending) (body : List Instr) : Instr :=
  match p.opener with
  | .block => .block p.ty body
  | .loop => .loop p.ty body
  | .ifThen => .ifElse p.ty body []
  | .ifElse thenBody => .ifElse p.ty thenBody body

/-- Reads lines.  `pending` are the constructs around the current place, innermost first, and `body`
are the instructions of the current sequence, last first. -/
def readLines (pending : List Pending) (body : List Instr) : List String → Option (List Instr)
  | [] => if pending.isEmpty then some body.reverse else none
  | text :: rest =>
    let enter (opener : Opener) (ty : String) : Option Pending :=
      (blockType ty).map fun ty => { opener, ty, before := body }
    match text.splitOn " ", pending with
    | ["Block", ty], _ => do readLines ((← enter .block ty) :: pending) [] rest
    | ["Loop", ty], _ => do readLines ((← enter .loop ty) :: pending) [] rest
    | ["If", ty], _ => do readLines ((← enter .ifThen ty) :: pending) [] rest
    | ["Else"], p :: outer =>
      match p.opener with
      | .ifThen => readLines ({ p with opener := .ifElse body.reverse } :: outer) [] rest
      | _ => none
    | ["End"], p :: outer => readLines outer (p.close body.reverse :: p.before) rest
    | words, _ => do readLines pending ((← plain words) :: body) rest

/-- The body of a listing. -/
def body? (lines : List String) : Option (List Instr) :=
  readLines [] [] lines

/-- The constant expression of a line. -/
def const? (text : String) : Option ConstExpr :=
  match text.splitOn " " with
  | ["I32", value] => (integer 32 value).map .i32
  | ["I64", value] => (integer 64 value).map .i64
  | ["F32", bits] => (pattern 32 bits).map .f32
  | ["F64", bits] => (pattern 64 bits).map .f64
  | ["RefNull", ty] => (valType ty).map .refNull
  | ["RefFunc", func] => (number func).map .refFunc
  | ["GlobalGet", index] => (number index).map .globalGet
  | _ => none

end Listing

end WasmAot
