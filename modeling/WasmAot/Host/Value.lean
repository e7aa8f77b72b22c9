/-
# Values

What crosses the boundary of a module is a value with its type.  Floats are bit patterns, and a
reference is the address of what it refers to.
-/
import WasmAot.Host.Trap
import WasmAot.Ieee.Format
import WasmAot.ValType

namespace WasmAot.Host

/-- The place of an object among those of its kind. -/
abbrev Address := Nat

/-- A value of one of the six types; a reference can be null. -/
inductive Value where
  | i32 (value : BitVec 32)
  | i64 (value : BitVec 64)
  | f32 (bits : BitVec 32)
  | f64 (bits : BitVec 64)
  | funcref (func : Option Address)
  | externref (object : Option Address)
  deriving DecidableEq

namespace Value

/-- The type of a value. -/
def type : Value → ValType
  | i32 _ => .i32
  | i64 _ => .i64
  | f32 _ => .f32
  | f64 _ => .f64
  | funcref _ => .funcref
  | externref _ => .externref

/-- The zero of a type, or its null reference. -/
def zero : ValType → Value
  | .i32 => i32 0
  | .i64 => i64 0
  | .f32 => f32 0
  | .f64 => f64 0
  | .funcref => funcref none
  | .externref => externref none

theorem type_zero (ty : ValType) : (zero ty).type = ty := by
  cases ty <;> rfl

/-- The value, if it has the type. -/
def expect (ty : ValType) (v : Value) : Except Trap Value :=
  if v.type = ty then .ok v else .error .valueTypeMismatch

/-- Equality of values: floats are compared as numbers, so that no NaN equals itself and the two zeros
are equal. -/
def same : Value → Value → Bool
  | f32 a, f32 b => Ieee.single.numEq a.toNat b.toNat
  | f64 a, f64 b => Ieee.double.numEq a.toNat b.toNat
  | a, b => a = b

end Value

end WasmAot.Host
