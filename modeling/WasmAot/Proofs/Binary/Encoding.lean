/-
# The binary encoding

How a module is written as bytes, by the rules of the binary format: the header, and then the
sections with something in them, in the order in which the format wants them.  Integers are written
with as few bytes as they need, the items of an element segment as expressions, and equal locals
that stand next to each other as one group.

The encoding is given constructor by constructor and opcode by opcode.  It shares with the reader of
the format only the bytes of the value types and of the kinds of items, and it is total: on a value
that the format has no bytes for it gives some bytes that stand for something else.
-/
import WasmAot.LittleEndian
import WasmAot.Module.Basic

namespace WasmAot.Binary

/-! ### Integers, runs of bytes and vectors -/

/-- An unsigned integer in groups of seven bits, lowest first; all bytes but the last are marked. -/
def unsignedBytes (n : Nat) : List UInt8 :=
  if n < 128 then [UInt8.ofNat n]
  else UInt8.ofNat (n % 128 + 128) :: unsignedBytes (n / 128)
termination_by n

/-- A signed integer in groups of seven bits.  The last group is the first one whose upper bit is
the sign of what is left. -/
def signedBytes (v : Int) : List UInt8 :=
  if -64 ≤ v ∧ v < 64 then [UInt8.ofNat (v % 128).toNat]
  else UInt8.ofNat ((v % 128).toNat + 128) :: signedBytes (v / 128)
termination_by v.natAbs

/-- Bytes behind their number. -/
def sizedBytes (bytes : List UInt8) : List UInt8 :=
  unsignedBytes bytes.length ++ bytes

/-- A name, in UTF-8. -/
def nameBytes (name : String) : List UInt8 :=
  sizedBytes name.toUTF8.data.toList

/-- A vector: the number of the items, then the items. -/
def vectorBytes {α : Type} (item : α → List UInt8) (items : List α) : List UInt8 :=
  unsignedBytes items.length ++ items.flatMap item

/-! ### Opcodes -/

/-- The opcodes of the loads; zero for a load that there is not. -/
def loadOpcode : LoadOp → UInt8
  | ⟨.i32, 32, false⟩ => 0x28
  | ⟨.i64, 64, false⟩ => 0x29
  | ⟨.f32, 32, false⟩ => 0x2a
  | ⟨.f64, 64, false⟩ => 0x2b
  | ⟨.i32, 8, true⟩ => 0x2c
  | ⟨.i32, 8, false⟩ => 0x2d
  | ⟨.i32, 16, true⟩ => 0x2e
  | ⟨.i32, 16, false⟩ => 0x2f
  | ⟨.i64, 8, true⟩ => 0x30
  | ⟨.i64, 8, false⟩ => 0x31
  | ⟨.i64, 16, true⟩ => 0x32
  | ⟨.i64, 16, false⟩ => 0x33
  | ⟨.i64, 32, true⟩ => 0x34
  | ⟨.i64, 32, false⟩ => 0x35
  | _ => 0x00

/-- The opcodes of the stores; zero for a store that there is not. -/
def storeOpcode : StoreOp → UInt8
  | ⟨.i32, 32⟩ => 0x36
  | ⟨.i64, 64⟩ => 0x37
  | ⟨.f32, 32⟩ => 0x38
  | ⟨.f64, 64⟩ => 0x39
  | ⟨.i32, 8⟩ => 0x3a
  | ⟨.i32, 16⟩ => 0x3b
  | ⟨.i64, 8⟩ => 0x3c
  | ⟨.i64, 16⟩ => 0x3d
  | ⟨.i64, 32⟩ => 0x3e
  | _ => 0x00

/-- The opcodes of the comparisons; zero where the comparison is not defined. -/
def compareOpcode : ValType → CmpOp → UInt8
  | .i32, .eq => 0x46 | .i32, .ne => 0x47 | .i32, .ltS => 0x48 | .i32, .ltU => 0x49
  | .i32, .gtS => 0x4a | .i32, .gtU => 0x4b | .i32, .leS => 0x4c | .i32, .leU => 0x4d
  | .i32, .geS => 0x4e | .i32, .geU => 0x4f
  | .i64, .eq => 0x51 | .i64, .ne => 0x52 | .i64, .ltS => 0x53 | .i64, .ltU => 0x54
  | .i64, .gtS => 0x55 | .i64, .gtU => 0x56 | .i64, .leS => 0x57 | .i64, .leU => 0x58
  | .i64, .geS => 0x59 | .i64, .geU => 0x5a
  | .f32, .eq => 0x5b | .f32, .ne => 0x5c | .f32, .lt => 0x5d | .f32, .gt => 0x5e
  | .f32, .le => 0x5f | .f32, .ge => 0x60
  | .f64, .eq => 0x61 | .f64, .ne => 0x62 | .f64, .lt => 0x63 | .f64, .gt => 0x64
  | .f64, .le => 0x65 | .f64, .ge => 0x66
  | _, _ => 0x00

/-- The opcodes of the unary operators; zero where the operator is not defined. -/
def unaryOpcode : ValType → UnOp → UInt8
  | .i32, .eqz => 0x45 | .i32, .clz => 0x67 | .i32, .ctz => 0x68 | .i32, .popcnt => 0x69
  | .i64, .eqz => 0x50 | .i64, .clz => 0x79 | .i64, .ctz => 0x7a | .i64, .popcnt => 0x7b
  | .f32, .abs => 0x8b | .f32, .neg => 0x8c | .f32, .ceil => 0x8d | .f32, .floor => 0x8e
  | .f32, .trunc => 0x8f | .f32, .nearest => 0x90 | .f32, .sqrt => 0x91
  | .f64, .abs => 0x99 | .f64, .neg => 0x9a | .f64, .ceil => 0x9b | .f64, .floor => 0x9c
  | .f64, .trunc => 0x9d | .f64, .nearest => 0x9e | .f64, .sqrt => 0x9f
  | .i32, .extend8S => 0xc0 | .i32, .extend16S => 0xc1
  | .i64, .extend8S => 0xc2 | .i64, .extend16S => 0xc3 | .i64, .extend32S => 0xc4
  | _, _ => 0x00

/-- The opcodes of the binary operators; zero where the operator is not defined. -/
def binaryOpcode : ValType → BinOp → UInt8
  | .i32, .add => 0x6a | .i32, .sub => 0x6b | .i32, .mul => 0x6c | .i32, .divS => 0x6d
  | .i32, .divU => 0x6e | .i32, .remS => 0x6f | .i32, .remU => 0x70 | .i32, .and => 0x71
  | .i32, .or => 0x72 | .i32, .xor => 0x73 | .i32, .shl => 0x74 | .i32, .shrS => 0x75
  | .i32, .shrU => 0x76 | .i32, .rotl => 0x77 | .i32, .rotr => 0x78
  | .i64, .add => 0x7c | .i64, .sub => 0x7d | .i64, .mul => 0x7e | .i64, .divS => 0x7f
  | .i64, .divU => 0x80 | .i64, .remS => 0x81 | .i64, .remU => 0x82 | .i64, .and => 0x83
  | .i64, .or => 0x84 | .i64, .xor => 0x85 | .i64, .shl => 0x86 | .i64, .shrS => 0x87
  | .i64, .shrU => 0x88 | .i64, .rotl => 0x89 | .i64, .rotr => 0x8a
  | .f32, .add => 0x92 | .f32, .sub => 0x93 | .f32, .mul => 0x94 | .f32, .div => 0x95
  | .f32, .min => 0x96 | .f32, .max => 0x97 | .f32, .copysign => 0x98
  | .f64, .add => 0xa0 | .f64, .sub => 0xa1 | .f64, .mul => 0xa2 | .f64, .div => 0xa3
  | .f64, .min => 0xa4 | .f64, .max => 0xa5 | .f64, .copysign => 0xa6
  | _, _ => 0x00

/-- The conversions; those that saturate have a second opcode. -/
def convertBytes : CvtOp → List UInt8
  | .i32WrapI64 => [0xa7]
  | .i32TruncF32S => [0xa8] | .i32TruncF32U => [0xa9]
  | .i32TruncF64S => [0xaa] | .i32TruncF64U => [0xab]
  | .i64ExtendI32S => [0xac] | .i64ExtendI32U => [0xad]
  | .i64TruncF32S => [0xae] | .i64TruncF32U => [0xaf]
  | .i64TruncF64S => [0xb0] | .i64TruncF64U => [0xb1]
  | .f32ConvertI32S => [0xb2] | .f32ConvertI32U => [0xb3]
  | .f32ConvertI64S => [0xb4] | .f32ConvertI64U => [0xb5] | .f32DemoteF64 => [0xb6]
  | .f64ConvertI32S => [0xb7] | .f64ConvertI32U => [0xb8]
  | .f64ConvertI64S => [0xb9] | .f64ConvertI64U => [0xba] | .f64PromoteF32 => [0xbb]
  | .i32ReinterpretF32 => [0xbc] | .i64ReinterpretF64 => [0xbd]
  | .f32ReinterpretI32 => [0xbe] | .f64ReinterpretI64 => [0xbf]
  | .i32TruncSatF32S => [0xfc, 0x00] | .i32TruncSatF32U => [0xfc, 0x01]
  | .i32TruncSatF64S => [0xfc, 0x02] | .i32TruncSatF64U => [0xfc, 0x03]
  | .i64TruncSatF32S => [0xfc, 0x04] | .i64TruncSatF32U => [0xfc, 0x05]
  | .i64TruncSatF64S => [0xfc, 0x06] | .i64TruncSatF64U => [0xfc, 0x07]

/-! ### Instructions and expressions -/

/-- The signature of a construct.  An index is a signed integer: since it is not negative its first
byte is none of those that stand for a value type or for no type. -/
def blockTypeBytes : BlockType → List UInt8
  | .empty => [0x40]
  | .value ty => [ty.toByte]
  | .indexed index => signedBytes index

/-- The static part of a memory access. -/
def memArgBytes (arg : MemArg) : List UInt8 :=
  unsignedBytes arg.align ++ unsignedBytes arg.offset

/-- An instruction that is no construct: the opcode and the immediates. -/
def plainBytes : Instr → List UInt8
  | .unreachable => [0x00]
  | .nop => [0x01]
  | .br depth => 0x0c :: unsignedBytes depth
  | .brIf depth => 0x0d :: unsignedBytes depth
  | .brTable targets default => 0x0e :: (vectorBytes unsignedBytes targets ++ unsignedBytes default)
  | .ret => [0x0f]
  | .call func => 0x10 :: unsignedBytes func
  | .callIndirect type table => 0x11 :: (unsignedBytes type ++ unsignedBytes table)
  | .drop => [0x1a]
  | .select none => [0x1b]
  | .select (some ty) => 0x1c :: vectorBytes (fun ty => [ty.toByte]) [ty]
  | .localGet index => 0x20 :: unsignedBytes index
  | .localSet index => 0x21 :: unsignedBytes index
  | .localTee index => 0x22 :: unsignedBytes index
  | .globalGet index => 0x23 :: unsignedBytes index
  | .globalSet index => 0x24 :: unsignedBytes index
  | .tableGet table => 0x25 :: unsignedBytes table
  | .tableSet table => 0x26 :: unsignedBytes table
  | .load op arg => loadOpcode op :: memArgBytes arg
  | .store op arg => storeOpcode op :: memArgBytes arg
  | .memorySize => [0x3f, 0x00]
  | .memoryGrow => [0x40, 0x00]
  | .i32Const value => 0x41 :: signedBytes value.toInt
  | .i64Const value => 0x42 :: signedBytes value.toInt
  | .f32Const bits => 0x43 :: LittleEndian.encode 4 bits.toNat
  | .f64Const bits => 0x44 :: LittleEndian.encode 8 bits.toNat
  | .compare ty op => [compareOpcode ty op]
  | .unary ty op => [unaryOpcode ty op]
  | .binary ty op => [binaryOpcode ty op]
  | .convert op => convertBytes op
  | .refNull ty => [0xd0, ty.toByte]
  | .refIsNull => [0xd1]
  | .refFunc func => 0xd2 :: unsignedBytes func
  | .memoryInit segment => 0xfc :: 0x08 :: (unsignedBytes segment ++ [0x00])
  | .dataDrop segment => 0xfc :: 0x09 :: unsignedBytes segment
  | .memoryCopy => [0xfc, 0x0a, 0x00, 0x00]
  | .memoryFill => [0xfc, 0x0b, 0x00]
  | .tableInit segment table => 0xfc :: 0x0c :: (unsignedBytes segment ++ unsignedBytes table)
  | .elemDrop segment => 0xfc :: 0x0d :: unsignedBytes segment
  | .tableCopy dst src => 0xfc :: 0x0e :: (unsignedBytes dst ++ unsignedBytes src)
  | .tableGrow table => 0xfc :: 0x0f :: unsignedBytes table
  | .tableSize table => 0xfc :: 0x10 :: unsignedBytes table
  | .tableFill table => 0xfc :: 0x11 :: unsignedBytes table
  | .block .. | .loop .. | .ifElse .. => []

mutual

/-- An instruction.  An empty second arm is left out. -/
def instrBytes : Instr → List UInt8
  | .block ty body => 0x02 :: (blockTypeBytes ty ++ seqBytes body ++ [0x0b])
  | .loop ty body => 0x03 :: (blockTypeBytes ty ++ seqBytes body ++ [0x0b])
  | .ifElse ty thenBody elseBody =>
    0x04 :: (blockTypeBytes ty ++ seqBytes thenBody ++
      (if elseBody.isEmpty then [] else 0x05 :: seqBytes elseBody) ++ [0x0b])
  | instr => plainBytes instr

/-- A sequence of instructions. -/
def seqBytes : List Instr → List UInt8
  | [] => []
  | instr :: rest => instrBytes instr ++ seqBytes rest

end

/-- An expression. -/
def exprBytes (body : List Instr) : List UInt8 :=
  seqBytes body ++ [0x0b]

/-- The instruction of a constant. -/
def constInstr : ConstExpr → Instr
  | .i32 value => .i32Const value
  | .i64 value => .i64Const value
  | .f32 bits => .f32Const bits
  | .f64 bits => .f64Const bits
  | .refNull ty => .refNull ty
  | .refFunc func => .refFunc func
  | .globalGet index => .globalGet index

/-- A constant expression. -/
def constBytes (c : ConstExpr) : List UInt8 :=
  exprBytes [constInstr c]

/-! ### Items of sections -/

/-- The size bounds of a memory or a table. -/
def limitsBytes (limits : Limits) : List UInt8 :=
  match limits.max with
  | none => 0x00 :: unsignedBytes limits.min
  | some max => 0x01 :: (unsignedBytes limits.min ++ unsignedBytes max)

/-- The type of a table. -/
def tableTypeBytes (type : TableType) : List UInt8 :=
  type.elem.toByte :: limitsBytes type.limits

/-- The type of a global. -/
def globalTypeBytes (type : GlobalType) : List UInt8 :=
  [type.ty.toByte, if type.mutable then 0x01 else 0x00]

/-- A signature. -/
def funcTypeBytes (type : FuncType) : List UInt8 :=
  0x60 :: (vectorBytes (fun ty => [ty.toByte]) type.params ++
    vectorBytes (fun ty => [ty.toByte]) type.results)

/-- What is imported. -/
def importDescBytes : ImportDesc → List UInt8
  | .func type => 0x00 :: unsignedBytes type
  | .table type => 0x01 :: tableTypeBytes type
  | .memory limits => 0x02 :: limitsBytes limits
  | .global type => 0x03 :: globalTypeBytes type

/-- An import. -/
def importBytes (item : Import) : List UInt8 :=
  nameBytes item.moduleName ++ nameBytes item.name ++ importDescBytes item.desc

/-- A global and its initial value. -/
def globalBytes (item : GlobalDef) : List UInt8 :=
  globalTypeBytes item.type ++ constBytes item.init

/-- An export. -/
def exportBytes (item : Export) : List UInt8 :=
  nameBytes item.name ++ item.kind.toByte :: unsignedBytes item.index

/-- An element segment.  There is a short form for functions that go to the first table. -/
def elemSegmentBytes (segment : ElemSegment) : List UInt8 :=
  (match segment.mode with
    | .active table offset =>
      if table = 0 ∧ segment.ty = .funcref then 0x04 :: constBytes offset
      else 0x06 :: (unsignedBytes table ++ constBytes offset ++ [segment.ty.toByte])
    | .passive => [0x05, segment.ty.toByte]
    | .declarative => [0x07, segment.ty.toByte]) ++
    vectorBytes constBytes segment.items

/-- When a data segment is used.  There is a short form for the first memory. -/
def dataModeBytes : DataMode → List UInt8
  | .active memory offset =>
    if memory = 0 then 0x00 :: constBytes offset
    else 0x02 :: (unsignedBytes memory ++ constBytes offset)
  | .passive => [0x01]

/-- A data segment. -/
def dataSegmentBytes (segment : DataSegment) : List UInt8 :=
  dataModeBytes segment.mode ++ sizedBytes segment.bytes

/-- The locals in groups: as many of one type as stand next to each other. -/
def localGroups : List ValType → List (Nat × ValType)
  | [] => []
  | ty :: rest =>
    match localGroups rest with
    | [] => [(1, ty)]
    | (count, groupTy) :: groups =>
      if ty = groupTy then (count + 1, ty) :: groups else (1, ty) :: (count, groupTy) :: groups

/-- The locals and the body of a function, behind their size. -/
def funcBodyBytes (func : FuncDef) : List UInt8 :=
  sizedBytes
    (vectorBytes (fun g => unsignedBytes g.1 ++ [g.2.toByte]) (localGroups func.locals) ++
      exprBytes func.body)

/-! ### Modules -/

/-- A section that is a vector, by its id; there is none if the vector is empty. -/
def vectorSection {α : Type} (id : UInt8) (item : α → List UInt8) (items : List α) :
    List (UInt8 × List UInt8) :=
  if items.isEmpty then [] else [(id, vectorBytes item items)]

/-- A section that is a single number, if there is one. -/
def numberSection (id : UInt8) (number : Option Nat) : List (UInt8 × List UInt8) :=
  number.toList.map fun n => (id, unsignedBytes n)

/-- The sections of a module, each as its id and its contents.  The number of data segments comes in
front of the code, so that the code can be checked in one pass. -/
def sections (m : Module) : List (UInt8 × List UInt8) :=
  vectorSection 1 funcTypeBytes m.types ++
    vectorSection 2 importBytes m.imports ++
    vectorSection 3 unsignedBytes (m.functions.map FuncDef.type) ++
    vectorSection 4 tableTypeBytes m.tables ++
    vectorSection 5 limitsBytes m.memories ++
    vectorSection 6 globalBytes m.globals ++
    vectorSection 7 exportBytes m.exports ++
    numberSection 8 m.start ++
    vectorSection 9 elemSegmentBytes m.elements ++
    numberSection 12 m.dataCount ++
    vectorSection 10 funcBodyBytes m.functions ++
    vectorSection 11 dataSegmentBytes m.data

/-- A module: the header, and the sections with their ids and sizes. -/
def encode (m : Module) : List UInt8 :=
  [0x00, 0x61, 0x73, 0x6d, 0x01, 0x00, 0x00, 0x00] ++
    (sections m).flatMap fun entry => entry.1 :: sizedBytes entry.2

end WasmAot.Binary
