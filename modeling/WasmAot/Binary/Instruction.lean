/-
# Instructions in the binary format

An instruction is an opcode and its immediates.  The numeric instructions, the loads and the stores
occupy consecutive opcodes, so they are given by tables; behind the byte `0xfc` a second opcode
follows.  The constructs `block`, `loop` and `if` are read elsewhere, since they nest.
-/
import WasmAot.Binary.Leb128

namespace WasmAot.Binary

/-- A value type. -/
def valType : Decoder ValType := do
  let offset ← position
  let b ← byte
  match ValType.ofByte? b with
  | some ty => return ty
  | none => parseFault offset (.invalidValueType b)

/-- A reference type. -/
def refType : Decoder ValType := do
  let offset ← position
  let ty ← valType
  if ty.isRef then return ty else parseFault offset (.notAReference ty)

/-- The signature of a construct: a byte for none, a value type, or the index of a type, which is a
signed integer so that it cannot be taken for one of the others. -/
def blockType : Decoder BlockType := do
  let offset ← position
  let b ← peek
  if b = 0x40 then
    let _ ← byte
    return .empty
  else
    match ValType.ofByte? b with
    | some ty =>
      let _ ← byte
      return .value ty
    | none =>
      let index ← signed 33
      if 0 ≤ index then return .indexed index.toNat
      else parseFault offset (.invalidBlockType index)

/-- The static part of a memory access. -/
def memArg : Decoder MemArg := do
  let align ← u32
  let offset ← u32
  return { align, offset }

/-- The byte that stands for the only memory. -/
def zeroMemory : Decoder Unit := do
  let offset ← position
  let b ← byte
  if b = 0x00 then return () else parseFault offset (.nonzeroMemoryIndex b)

/-- The loads, from opcode `0x28` on. -/
def loadOps : List LoadOp :=
  [⟨.i32, 32, false⟩, ⟨.i64, 64, false⟩, ⟨.f32, 32, false⟩, ⟨.f64, 64, false⟩,
    ⟨.i32, 8, true⟩, ⟨.i32, 8, false⟩, ⟨.i32, 16, true⟩, ⟨.i32, 16, false⟩,
    ⟨.i64, 8, true⟩, ⟨.i64, 8, false⟩, ⟨.i64, 16, true⟩, ⟨.i64, 16, false⟩,
    ⟨.i64, 32, true⟩, ⟨.i64, 32, false⟩]

/-- The stores, from opcode `0x36` on. -/
def storeOps : List StoreOp :=
  [⟨.i32, 32⟩, ⟨.i64, 64⟩, ⟨.f32, 32⟩, ⟨.f64, 64⟩, ⟨.i32, 8⟩, ⟨.i32, 16⟩, ⟨.i64, 8⟩,
    ⟨.i64, 16⟩, ⟨.i64, 32⟩]

/-- Comparisons of integers, in the order of their opcodes. -/
def intCompare : List CmpOp :=
  [.eq, .ne, .ltS, .ltU, .gtS, .gtU, .leS, .leU, .geS, .geU]

/-- Comparisons of floats, in the order of their opcodes. -/
def floatCompare : List CmpOp :=
  [.eq, .ne, .lt, .gt, .le, .ge]

/-- Unary operators of integers, in the order of their opcodes. -/
def intUnary : List UnOp :=
  [.clz, .ctz, .popcnt]

/-- Binary operators of integers, in the order of their opcodes. -/
def intBinary : List BinOp :=
  [.add, .sub, .mul, .divS, .divU, .remS, .remU, .and, .or, .xor, .shl, .shrS, .shrU, .rotl, .rotr]

/-- Unary operators of floats, in the order of their opcodes. -/
def floatUnary : List UnOp :=
  [.abs, .neg, .ceil, .floor, .trunc, .nearest, .sqrt]

/-- Binary operators of floats, in the order of their opcodes. -/
def floatBinary : List BinOp :=
  [.add, .sub, .mul, .div, .min, .max, .copysign]

/-- The numeric instructions, from opcode `0x45` on. -/
def numericInstrs : List Instr :=
  [Instr.unary .i32 .eqz] ++ intCompare.map (Instr.compare .i32) ++
    [Instr.unary .i64 .eqz] ++ intCompare.map (Instr.compare .i64) ++
    floatCompare.map (Instr.compare .f32) ++ floatCompare.map (Instr.compare .f64) ++
    intUnary.map (Instr.unary .i32) ++ intBinary.map (Instr.binary .i32) ++
    intUnary.map (Instr.unary .i64) ++ intBinary.map (Instr.binary .i64) ++
    floatUnary.map (Instr.unary .f32) ++ floatBinary.map (Instr.binary .f32) ++
    floatUnary.map (Instr.unary .f64) ++ floatBinary.map (Instr.binary .f64) ++
    (CvtOp.all.take 25).map Instr.convert ++
    [Instr.unary .i32 .extend8S, Instr.unary .i32 .extend16S, Instr.unary .i64 .extend8S,
      Instr.unary .i64 .extend16S, Instr.unary .i64 .extend32S]

/-- The conversions that saturate, from the first opcode behind `0xfc` on. -/
def saturating : List CvtOp :=
  CvtOp.all.drop 25

/-- The entry of a table that starts at the opcode `first`. -/
def entryAt? {α : Type} (table : List α) (first code : Nat) : Option α :=
  if first ≤ code then table[code - first]? else none

/-- The instruction of a second opcode behind `0xfc`; `offset` is the place of that byte. -/
def extended (offset : Nat) : Decoder Instr := do
  let sub ← u32
  match sub with
  | 8 =>
    let segment ← u32
    zeroMemory
    return .memoryInit segment
  | 9 => return .dataDrop (← u32)
  | 10 =>
    zeroMemory
    zeroMemory
    return .memoryCopy
  | 11 =>
    zeroMemory
    return .memoryFill
  | 12 =>
    let segment ← u32
    let table ← u32
    return .tableInit segment table
  | 13 => return .elemDrop (← u32)
  | 14 =>
    let dst ← u32
    let src ← u32
    return .tableCopy dst src
  | 15 => return .tableGrow (← u32)
  | 16 => return .tableSize (← u32)
  | 17 => return .tableFill (← u32)
  | _ =>
    match saturating[sub]? with
    | some op => return .convert op
    | none => parseFault offset (.unknownExtendedOpcode sub)

/-- The instruction of an opcode from one of the tables. -/
def tabled (offset : Nat) (opcode : UInt8) : Decoder Instr :=
  match entryAt? loadOps 0x28 opcode.toNat with
  | some op => return .load op (← memArg)
  | none =>
    match entryAt? storeOps 0x36 opcode.toNat with
    | some op => return .store op (← memArg)
    | none =>
      match entryAt? numericInstrs 0x45 opcode.toNat with
      | some instr => return instr
      | none => parseFault offset (.unknownOpcode opcode)

/-- The instruction of an opcode that opens no construct; `offset` is the place of the opcode. -/
def plainInstr (offset : Nat) (opcode : UInt8) : Decoder Instr := do
  match opcode.toNat with
  | 0x00 => return .unreachable
  | 0x01 => return .nop
  | 0x0c => return .br (← u32)
  | 0x0d => return .brIf (← u32)
  | 0x0e =>
    let targets ← vector u32
    let default ← u32
    return .brTable targets default
  | 0x0f => return .ret
  | 0x10 => return .call (← u32)
  | 0x11 =>
    let type ← u32
    let table ← u32
    return .callIndirect type table
  | 0x1a => return .drop
  | 0x1b => return .select none
  | 0x1c =>
    match ← vector valType with
    | [ty] => return .select (some ty)
    | types => parseFault offset (.selectArity types.length)
  | 0x20 => return .localGet (← u32)
  | 0x21 => return .localSet (← u32)
  | 0x22 => return .localTee (← u32)
  | 0x23 => return .globalGet (← u32)
  | 0x24 => return .globalSet (← u32)
  | 0x25 => return .tableGet (← u32)
  | 0x26 => return .tableSet (← u32)
  | 0x3f =>
    zeroMemory
    return .memorySize
  | 0x40 =>
    zeroMemory
    return .memoryGrow
  | 0x41 => return .i32Const (← i32)
  | 0x42 => return .i64Const (← i64)
  | 0x43 => return .f32Const (BitVec.ofNat 32 (← floatBits 4))
  | 0x44 => return .f64Const (BitVec.ofNat 64 (← floatBits 8))
  | 0xd0 => return .refNull (← refType)
  | 0xd1 => return .refIsNull
  | 0xd2 => return .refFunc (← u32)
  | 0xfc => extended offset
  | _ => tabled offset opcode

end WasmAot.Binary
