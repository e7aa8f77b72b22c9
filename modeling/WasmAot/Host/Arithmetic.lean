/-
# Arithmetic of the emitted code

Operations of WebAssembly that are no plain operators: addresses, the divisions that trap, the
truncation of floats to integers, and the smaller and larger of two floats.
-/
import WasmAot.Host.Trap
import WasmAot.Ieee.Format

namespace WasmAot.Host

/-- The address of a memory access: the base, read as unsigned, and the static offset; it does not
wrap. -/
def accessAddress (base offset : BitVec 32) : Nat :=
  base.toNat + offset.toNat

section Integers

variable {w : Nat}

/-- The signed quotient, toward zero. -/
def divS (a b : BitVec w) : Except Trap (BitVec w) :=
  if b = 0 then .error .divisionByZero
  else if a = BitVec.intMin w && b = -1 then .error .integerOverflow
  else .ok (a.sdiv b)

/-- The unsigned quotient. -/
def divU (a b : BitVec w) : Except Trap (BitVec w) :=
  if b = 0 then .error .divisionByZero else .ok (a.udiv b)

/-- The signed remainder, with the sign of the first operand. -/
def remS (a b : BitVec w) : Except Trap (BitVec w) :=
  if b = 0 then .error .divisionByZero else .ok (a.srem b)

/-- The unsigned remainder. -/
def remU (a b : BitVec w) : Except Trap (BitVec w) :=
  if b = 0 then .error .divisionByZero else .ok (a.umod b)

end Integers

/-! ### Floats -/

/-- The integer is in the range of the signed or unsigned words of the width. -/
def inRange (width : Nat) (signed : Bool) (n : Int) : Bool :=
  if signed then -(1 <<< (width - 1) : Nat) ≤ n && n < (1 <<< (width - 1) : Nat)
  else 0 ≤ n && n < (1 <<< width : Nat)

/-- The integer part of a float as a word, where it fits. -/
def truncateFloat (f : Ieee.Format) (width : Nat) (signed : Bool) (bits : Nat) :
    Except Trap (BitVec width) :=
  match f.decode bits with
  | .nan => .error .invalidConversion
  | .infinite _ => .error .integerOverflow
  | .finite negative significand exponent =>
    let n := Ieee.truncate negative significand exponent
    if inRange width signed n then .ok (BitVec.ofInt width n) else .error .integerOverflow

/-- The pattern of the NaN that arithmetic gives. -/
def canonicalNan (f : Ieee.Format) : Nat :=
  f.infinity + f.quietBit

/-- The smaller of two floats; a NaN if one of them is, and of two zeros a negative one. -/
def minFloat (f : Ieee.Format) (a b : Nat) : Nat :=
  if f.isNan a || f.isNan b then canonicalNan f
  else if f.rank a = f.rank b then if f.isNegative a then a else b
  else if f.rank a < f.rank b then a else b

/-- The larger of two floats; a NaN if one of them is, and of two zeros a positive one. -/
def maxFloat (f : Ieee.Format) (a b : Nat) : Nat :=
  if f.isNan a || f.isNan b then canonicalNan f
  else if f.rank a = f.rank b then if f.isNegative a then b else a
  else if f.rank a < f.rank b then b else a

end WasmAot.Host
