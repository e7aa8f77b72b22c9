/-
# Numeric operators

Comparisons, unary and binary operators and conversions.  Where the sign of an integer matters the
operator says which reading it takes; the orders without a sign are those of floats.  An operator is
paired with the type of its operands in an instruction, and not every pair is defined.
-/
import WasmAot.ValType

namespace WasmAot

/-- Comparisons. -/
inductive CmpOp where
  | eq | ne
  | ltS | ltU | gtS | gtU | leS | leU | geS | geU
  | lt | gt | le | ge
  deriving DecidableEq

/-- Operators with one operand. -/
inductive UnOp where
  | eqz | clz | ctz | popcnt | extend8S | extend16S | extend32S
  | abs | neg | ceil | floor | trunc | nearest | sqrt
  deriving DecidableEq

/-- Operators with two operands. -/
inductive BinOp where
  | add | sub | mul
  | divS | divU | remS | remU | and | or | xor | shl | shrS | shrU | rotl | rotr
  | div | min | max | copysign
  deriving DecidableEq

/-- Conversions between value types.  `Sat` marks those that saturate where the others trap. -/
inductive CvtOp where
  | i32WrapI64
  | i32TruncF32S | i32TruncF32U | i32TruncF64S | i32TruncF64U
  | i64ExtendI32S | i64ExtendI32U
  | i64TruncF32S | i64TruncF32U | i64TruncF64S | i64TruncF64U
  | f32ConvertI32S | f32ConvertI32U | f32ConvertI64S | f32ConvertI64U | f32DemoteF64
  | f64ConvertI32S | f64ConvertI32U | f64ConvertI64S | f64ConvertI64U | f64PromoteF32
  | i32ReinterpretF32 | i64ReinterpretF64 | f32ReinterpretI32 | f64ReinterpretI64
  | i32TruncSatF32S | i32TruncSatF32U | i32TruncSatF64S | i32TruncSatF64U
  | i64TruncSatF32S | i64TruncSatF32U | i64TruncSatF64S | i64TruncSatF64U
  deriving DecidableEq

namespace CmpOp

/-- Every comparison. -/
def all : List CmpOp :=
  [eq, ne, ltS, ltU, gtS, gtU, leS, leU, geS, geU, lt, gt, le, ge]

/-- The name used in diagnostics. -/
def name : CmpOp → String
  | eq => "Eq"
  | ne => "Ne"
  | ltS => "LtS"
  | ltU => "LtU"
  | gtS => "GtS"
  | gtU => "GtU"
  | leS => "LeS"
  | leU => "LeU"
  | geS => "GeS"
  | geU => "GeU"
  | lt => "Lt"
  | gt => "Gt"
  | le => "Le"
  | ge => "Ge"

/-- Equality is defined on all numbers, the orders with a sign on integers, those without one on
floats. -/
def definedFor (op : CmpOp) (ty : ValType) : Bool :=
  match op with
  | eq | ne => ty.isInt || ty.isFloat
  | lt | gt | le | ge => ty.isFloat
  | _ => ty.isInt

end CmpOp

namespace UnOp

/-- Every unary operator. -/
def all : List UnOp :=
  [eqz, clz, ctz, popcnt, extend8S, extend16S, extend32S, abs, neg, ceil, floor, trunc, nearest,
    sqrt]

/-- The name used in diagnostics. -/
def name : UnOp → String
  | eqz => "Eqz"
  | clz => "Clz"
  | ctz => "Ctz"
  | popcnt => "Popcnt"
  | extend8S => "Extend8S"
  | extend16S => "Extend16S"
  | extend32S => "Extend32S"
  | abs => "Abs"
  | neg => "Neg"
  | ceil => "Ceil"
  | floor => "Floor"
  | trunc => "Trunc"
  | nearest => "Nearest"
  | sqrt => "Sqrt"

/-- Bit counts and sign extension are for integers, a value of 32 bits being extended only in the
wider type; the rest is for floats. -/
def definedFor (op : UnOp) (ty : ValType) : Bool :=
  match op with
  | eqz | clz | ctz | popcnt | extend8S | extend16S => ty.isInt
  | extend32S => ty = .i64
  | _ => ty.isFloat

/-- The type of the result. -/
def resultType (op : UnOp) (ty : ValType) : ValType :=
  match op with
  | eqz => .i32
  | _ => ty

end UnOp

namespace BinOp

/-- Every binary operator. -/
def all : List BinOp :=
  [add, sub, mul, divS, divU, remS, remU, and, or, xor, shl, shrS, shrU, rotl, rotr, div, min,
    max, copysign]

/-- The name used in diagnostics. -/
def name : BinOp → String
  | add => "Add"
  | sub => "Sub"
  | mul => "Mul"
  | divS => "DivS"
  | divU => "DivU"
  | remS => "RemS"
  | remU => "RemU"
  | and => "And"
  | or => "Or"
  | xor => "Xor"
  | shl => "Shl"
  | shrS => "ShrS"
  | shrU => "ShrU"
  | rotl => "Rotl"
  | rotr => "Rotr"
  | div => "Div"
  | min => "Min"
  | max => "Max"
  | copysign => "Copysign"

/-- The ring operations are defined on all numbers, division with a sign, bit operations, shifts and
rotations on integers, the rest on floats. -/
def definedFor (op : BinOp) (ty : ValType) : Bool :=
  match op with
  | add | sub | mul => ty.isInt || ty.isFloat
  | div | min | max | copysign => ty.isFloat
  | _ => ty.isInt

end BinOp

namespace CvtOp

/-- Every conversion: those of the one-byte opcodes in their order, then the saturating ones. -/
def all : List CvtOp :=
  [i32WrapI64, i32TruncF32S, i32TruncF32U, i32TruncF64S, i32TruncF64U, i64ExtendI32S,
    i64ExtendI32U, i64TruncF32S, i64TruncF32U, i64TruncF64S, i64TruncF64U, f32ConvertI32S,
    f32ConvertI32U, f32ConvertI64S, f32ConvertI64U, f32DemoteF64, f64ConvertI32S,
    f64ConvertI32U, f64ConvertI64S, f64ConvertI64U, f64PromoteF32, i32ReinterpretF32,
    i64ReinterpretF64, f32ReinterpretI32, f64ReinterpretI64, i32TruncSatF32S, i32TruncSatF32U,
    i32TruncSatF64S, i32TruncSatF64U, i64TruncSatF32S, i64TruncSatF32U, i64TruncSatF64S,
    i64TruncSatF64U]

/-- The name used in diagnostics. -/
def name : CvtOp → String
  | i32WrapI64 => "I32WrapI64"
  | i32TruncF32S => "I32TruncF32S"
  | i32TruncF32U => "I32TruncF32U"
  | i32TruncF64S => "I32TruncF64S"
  | i32TruncF64U => "I32TruncF64U"
  | i64ExtendI32S => "I64ExtendI32S"
  | i64ExtendI32U => "I64ExtendI32U"
  | i64TruncF32S => "I64TruncF32S"
  | i64TruncF32U => "I64TruncF32U"
  | i64TruncF64S => "I64TruncF64S"
  | i64TruncF64U => "I64TruncF64U"
  | f32ConvertI32S => "F32ConvertI32S"
  | f32ConvertI32U => "F32ConvertI32U"
  | f32ConvertI64S => "F32ConvertI64S"
  | f32ConvertI64U => "F32ConvertI64U"
  | f32DemoteF64 => "F32DemoteF64"
  | f64ConvertI32S => "F64ConvertI32S"
  | f64ConvertI32U => "F64ConvertI32U"
  | f64ConvertI64S => "F64ConvertI64S"
  | f64ConvertI64U => "F64ConvertI64U"
  | f64PromoteF32 => "F64PromoteF32"
  | i32ReinterpretF32 => "I32ReinterpretF32"
  | i64ReinterpretF64 => "I64ReinterpretF64"
  | f32ReinterpretI32 => "F32ReinterpretI32"
  | f64ReinterpretI64 => "F64ReinterpretI64"
  | i32TruncSatF32S => "I32TruncSatF32S"
  | i32TruncSatF32U => "I32TruncSatF32U"
  | i32TruncSatF64S => "I32TruncSatF64S"
  | i32TruncSatF64U => "I32TruncSatF64U"
  | i64TruncSatF32S => "I64TruncSatF32S"
  | i64TruncSatF32U => "I64TruncSatF32U"
  | i64TruncSatF64S => "I64TruncSatF64S"
  | i64TruncSatF64U => "I64TruncSatF64U"

/-- The type of the operand. -/
def source : CvtOp → ValType
  | i64ExtendI32S | i64ExtendI32U | f32ConvertI32S | f32ConvertI32U | f64ConvertI32S
  | f64ConvertI32U | f32ReinterpretI32 => .i32
  | i32WrapI64 | f32ConvertI64S | f32ConvertI64U | f64ConvertI64S | f64ConvertI64U
  | f64ReinterpretI64 => .i64
  | i32TruncF32S | i32TruncF32U | i64TruncF32S | i64TruncF32U | f64PromoteF32 | i32ReinterpretF32
  | i32TruncSatF32S | i32TruncSatF32U | i64TruncSatF32S | i64TruncSatF32U => .f32
  | i32TruncF64S | i32TruncF64U | i64TruncF64S | i64TruncF64U | f32DemoteF64 | i64ReinterpretF64
  | i32TruncSatF64S | i32TruncSatF64U | i64TruncSatF64S | i64TruncSatF64U => .f64

/-- The type of the result. -/
def target : CvtOp → ValType
  | i32WrapI64 | i32TruncF32S | i32TruncF32U | i32TruncF64S | i32TruncF64U | i32ReinterpretF32
  | i32TruncSatF32S | i32TruncSatF32U | i32TruncSatF64S | i32TruncSatF64U => .i32
  | i64ExtendI32S | i64ExtendI32U | i64TruncF32S | i64TruncF32U | i64TruncF64S | i64TruncF64U
  | i64ReinterpretF64 | i64TruncSatF32S | i64TruncSatF32U | i64TruncSatF64S
  | i64TruncSatF64U => .i64
  | f32ConvertI32S | f32ConvertI32U | f32ConvertI64S | f32ConvertI64U | f32DemoteF64
  | f32ReinterpretI32 => .f32
  | f64ConvertI32S | f64ConvertI32U | f64ConvertI64S | f64ConvertI64U | f64PromoteF32
  | f64ReinterpretI64 => .f64

end CvtOp

end WasmAot
