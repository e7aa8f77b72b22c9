/-
# Value types

The six types of WebAssembly values, their encoding as a byte, and how values of each of them are
spelled in the emitted source: the type of a variable, its zero, and the constructor, accessor and
one-letter tag of the dynamically typed values that cross module boundaries.
-/
import WasmAot.Text.Digits

namespace WasmAot

/-- The types of WebAssembly values. -/
inductive ValType where
  | i32
  | i64
  | f32
  | f64
  | funcref
  | externref
  deriving DecidableEq, Inhabited

namespace ValType

/-- Every value type, in the order of their encodings. -/
def all : List ValType := [i32, i64, f32, f64, funcref, externref]

/-- The name in the text format, also used in diagnostics. -/
def name : ValType → String
  | i32 => "i32"
  | i64 => "i64"
  | f32 => "f32"
  | f64 => "f64"
  | funcref => "funcref"
  | externref => "externref"

/-- The byte of the binary format. -/
def toByte : ValType → UInt8
  | i32 => 0x7f
  | i64 => 0x7e
  | f32 => 0x7d
  | f64 => 0x7c
  | funcref => 0x70
  | externref => 0x6f

/-- The type that a byte encodes. -/
def ofByte? (byte : UInt8) : Option ValType :=
  all.find? fun ty => ty.toByte = byte

/-- References, which are not copied by plain use of a variable. -/
def isRef : ValType → Bool
  | funcref | externref => true
  | _ => false

/-- The integer types. -/
def isInt : ValType → Bool
  | i32 | i64 => true
  | _ => false

/-- The floating-point types. -/
def isFloat : ValType → Bool
  | f32 | f64 => true
  | _ => false

/-- The type of an emitted variable. -/
def variableType : ValType → String
  | funcref => "Option<FuncRef>"
  | externref => "Option<ExternRef>"
  | ty => ty.name

/-- The literal for the zero of the type; the null reference for references. -/
def zeroLiteral : ValType → String
  | i32 => "0i32"
  | i64 => "0i64"
  | f32 => "0.0f32"
  | f64 => "0.0f64"
  | funcref | externref => "None"

/-- The name of the type among the constructors of a sum. -/
def variantName : ValType → String
  | i32 => "I32"
  | i64 => "I64"
  | f32 => "F32"
  | f64 => "F64"
  | funcref => "FuncRef"
  | externref => "ExternRef"

/-- The type as a value of the emitted source, in a signature. -/
def signatureEntry (ty : ValType) : String :=
  "ValType::" ++ ty.variantName

/-- The constructor that makes a dynamically typed value. -/
def wrapper (ty : ValType) : String :=
  "Value::" ++ ty.variantName

/-- The method that takes a dynamically typed value apart. -/
def accessor : ValType → String
  | i32 => "as_i32"
  | i64 => "as_i64"
  | f32 => "as_f32"
  | f64 => "as_f64"
  | funcref => "as_func_ref"
  | externref => "as_extern_ref"

/-- The one-letter tag of a global of the type. -/
def tag : ValType → Char
  | i32 => 'i'
  | i64 => 'I'
  | f32 => 'f'
  | f64 => 'F'
  | funcref => 'r'
  | externref => 'e'

/-- The type with the given tag. -/
def ofTag? (tag : Char) : Option ValType :=
  all.find? fun ty => ty.tag = tag

end ValType

/-- A list of types for a diagnostic, `[i32, i64]`. -/
def typesText (types : List ValType) : String :=
  "[" ++ Text.commaSep (types.map ValType.name) ++ "]"

end WasmAot
