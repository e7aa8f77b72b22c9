/-
# The meaning of the integer operators

The operators of WebAssembly on integers of 32 and 64 bits as operations on words.  Arithmetic
wraps, a shift counts modulo the width, and a division can trap.  The same operators stand in the
instructions and in the expressions of the emitted code, and have the same meaning in both.
-/
import WasmAot.Host.Arithmetic
import WasmAot.Host.Value
import WasmAot.Instr.Operator
import Mathlib.Tactic.Lemma

namespace WasmAot.Semantics

open Host

/-- The truth of a test as a value. -/
def truth (holds : Bool) : Value :=
  .i32 (if holds then 1 else 0)

section Words

variable {w : Nat}

/-- A comparison of words. -/
def compareWords (op : CmpOp) (a b : BitVec w) : Option Bool :=
  match op with
  | .eq => some (a = b)
  | .ne => some (a ≠ b)
  | .ltS => some (a.slt b)
  | .ltU => some (a.ult b)
  | .gtS => some (b.slt a)
  | .gtU => some (b.ult a)
  | .leS => some (a.sle b)
  | .leU => some (a.ule b)
  | .geS => some (b.sle a)
  | .geU => some (b.ule a)
  | .lt | .gt | .le | .ge => none

/-- A unary operation on a word that gives a word of the same width. -/
def unaryWord (op : UnOp) (a : BitVec w) : Option (BitVec w) :=
  match op with
  | .clz => some a.clz
  | .ctz => some a.ctz
  | .popcnt => some a.cpop
  | .extend8S => some ((a.setWidth 8).signExtend w)
  | .extend16S => some ((a.setWidth 16).signExtend w)
  | .extend32S => some ((a.setWidth 32).signExtend w)
  | .eqz | .abs | .neg | .ceil | .floor | .trunc | .nearest | .sqrt => none

/-- A binary operation on words, which can trap. -/
def binaryWords (op : BinOp) (a b : BitVec w) : Option (Except Trap (BitVec w)) :=
  match op with
  | .add => some (.ok (a + b))
  | .sub => some (.ok (a - b))
  | .mul => some (.ok (a * b))
  | .divS => some (divS a b)
  | .divU => some (divU a b)
  | .remS => some (remS a b)
  | .remU => some (remU a b)
  | .and => some (.ok (a &&& b))
  | .or => some (.ok (a ||| b))
  | .xor => some (.ok (a ^^^ b))
  | .shl => some (.ok (a <<< (b.toNat % w)))
  | .shrS => some (.ok (a.sshiftRight (b.toNat % w)))
  | .shrU => some (.ok (a >>> (b.toNat % w)))
  | .rotl => some (.ok (a.rotateLeft b.toNat))
  | .rotr => some (.ok (a.rotateRight b.toNat))
  | .div | .min | .max | .copysign => none

end Words

/-- A comparison of two integers of a type. -/
def compareValues : ValType → CmpOp → Value → Value → Option Value
  | .i32, op, .i32 a, .i32 b => (compareWords op a b).map truth
  | .i64, op, .i64 a, .i64 b => (compareWords op a b).map truth
  | _, _, _, _ => none

/-- A unary operation on an integer of a type. -/
def unaryValue : ValType → UnOp → Value → Option Value
  | .i32, .eqz, .i32 a => some (truth (a = 0))
  | .i64, .eqz, .i64 a => some (truth (a = 0))
  | .i32, op, .i32 a => (unaryWord op a).map .i32
  | .i64, op, .i64 a => (unaryWord op a).map .i64
  | _, _, _ => none

/-- A binary operation on two integers of a type. -/
def binaryValues : ValType → BinOp → Value → Value → Option (Except Trap Value)
  | .i32, op, .i32 a, .i32 b => (binaryWords op a b).map (Except.map .i32)
  | .i64, op, .i64 a, .i64 b => (binaryWords op a b).map (Except.map .i64)
  | _, _, _, _ => none

/-! ### Operators on operands of their type -/

lemma exists_i32_of_type {v : Value} (h : v.type = .i32) : ∃ a, v = .i32 a := by
  cases v with
  | i32 a => exact ⟨a, rfl⟩
  | _ => cases h

lemma exists_i64_of_type {v : Value} (h : v.type = .i64) : ∃ a, v = .i64 a := by
  cases v with
  | i64 a => exact ⟨a, rfl⟩
  | _ => cases h

variable {ty : ValType} {v v' : Value}

/-- A comparison that is defined on integers gives a truth value. -/
lemma exists_compareValues {op : CmpOp} (hint : ty.isInt = true) (hdefined : op.definedFor ty = true)
    (hv : v.type = ty) (hv' : v'.type = ty) :
    ∃ r, compareValues ty op v v' = some r ∧ r.type = .i32 := by
  cases ty with
  | i32 =>
    obtain ⟨a, rfl⟩ := exists_i32_of_type hv
    obtain ⟨b, rfl⟩ := exists_i32_of_type hv'
    cases op <;> first | exact ⟨_, rfl, rfl⟩ | cases hdefined
  | i64 =>
    obtain ⟨a, rfl⟩ := exists_i64_of_type hv
    obtain ⟨b, rfl⟩ := exists_i64_of_type hv'
    cases op <;> first | exact ⟨_, rfl, rfl⟩ | cases hdefined
  | _ => cases hint

/-- A unary operation that is defined on integers gives a value of its result type. -/
lemma exists_unaryValue {op : UnOp} (hint : ty.isInt = true) (hdefined : op.definedFor ty = true)
    (hv : v.type = ty) : ∃ r, unaryValue ty op v = some r ∧ r.type = op.resultType ty := by
  cases ty with
  | i32 =>
    obtain ⟨a, rfl⟩ := exists_i32_of_type hv
    cases op <;> first | exact ⟨_, rfl, rfl⟩ | cases hdefined
  | i64 =>
    obtain ⟨a, rfl⟩ := exists_i64_of_type hv
    cases op <;> first | exact ⟨_, rfl, rfl⟩ | cases hdefined
  | _ => cases hint

lemma type_of_map_ok {α : Type} {f : α → Value} (hf : ∀ a, (f a).type = ty) {r : Except Trap α}
    (h : r.map f = .ok v) : v.type = ty := by
  cases r with
  | ok a => rw [← Except.ok.inj h, hf]
  | error t => cases h

/-- A binary operation that is defined on integers traps or gives a value of the type. -/
lemma exists_binaryValues {op : BinOp} (hint : ty.isInt = true) (hdefined : op.definedFor ty = true)
    (hv : v.type = ty) (hv' : v'.type = ty) :
    ∃ r, binaryValues ty op v v' = some r ∧ ∀ u, r = .ok u → u.type = ty := by
  cases ty with
  | i32 =>
    obtain ⟨a, rfl⟩ := exists_i32_of_type hv
    obtain ⟨b, rfl⟩ := exists_i32_of_type hv'
    cases op <;> first
      | exact ⟨_, rfl, fun u hu => type_of_map_ok (fun _ => rfl) hu⟩
      | cases hdefined
  | i64 =>
    obtain ⟨a, rfl⟩ := exists_i64_of_type hv
    obtain ⟨b, rfl⟩ := exists_i64_of_type hv'
    cases op <;> first
      | exact ⟨_, rfl, fun u hu => type_of_map_ok (fun _ => rfl) hu⟩
      | cases hdefined
  | _ => cases hint

end WasmAot.Semantics
