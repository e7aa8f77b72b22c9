/-
# Division of words

The quotients and remainders of words are taken in two readings, as signed and as unsigned integers,
and trap where there is none.  This file says which quotient and which remainder they give, in terms
of the division of integers, at every width.

The signed quotient is the one toward zero.  There is one pair of operands whose quotient is no word
of the width, the least integer and -1; there the division traps, while the remainder is the 0 that
it should be.
-/
import Mathlib.Algebra.Group.Int.Defs
import Mathlib.Logic.Basic
import WasmAot.Host.Arithmetic

namespace WasmAot.Host

variable {w : Nat} {a b : BitVec w}

/-- The quotient of the operands is no signed word: they are the least integer and -1. -/
def Overflows (a b : BitVec w) : Prop :=
  a.toInt = -2 ^ (w - 1) ∧ b.toInt = -1

/-! ### Operands as integers -/

lemma toInt_eq_zero_iff : b.toInt = 0 ↔ b = 0 := by
  rw [← BitVec.toInt_inj]
  simp

lemma toNat_eq_zero_iff : b.toNat = 0 ↔ b = 0 := by
  rw [← BitVec.toNat_inj]
  simp

/-- Behind the test for zero, the test for overflow is the one on integers. -/
lemma overflows_iff (hb : b ≠ 0) : Overflows a b ↔ a = BitVec.intMin w ∧ b = -1 := by
  -- there is no word other than zero unless the width is positive
  have hw : 0 < w := by
    rcases Nat.eq_zero_or_pos w with rfl | hw
    · exact absurd (BitVec.eq_of_zero_length rfl) hb
    · exact hw
  have hmin : (BitVec.intMin w).toInt = -2 ^ (w - 1) := BitVec.toInt_intMin_of_pos hw
  have hone : (-1 : BitVec w).toInt = -1 := by
    change (-1#w).toInt = -1
    rw [BitVec.neg_one_eq_allOnes, BitVec.toInt_allOnes, if_pos hw]
  rw [Overflows, ← hmin, ← hone, BitVec.toInt_inj, BitVec.toInt_inj]

/-! ### What the operations give -/

lemma divS_cases (a b : BitVec w) :
    (b.toInt = 0 ∧ ¬ Overflows a b ∧ divS a b = .error .divisionByZero) ∨
      (b.toInt ≠ 0 ∧ Overflows a b ∧ divS a b = .error .integerOverflow) ∨
      (b.toInt ≠ 0 ∧ ¬ Overflows a b ∧ divS a b = .ok (a.sdiv b) ∧
        (a.sdiv b).toInt = a.toInt.tdiv b.toInt) := by
  by_cases hb : b = 0
  · have hzero : b.toInt = 0 := toInt_eq_zero_iff.2 hb
    refine .inl ⟨hzero, fun h => ?_, if_pos hb⟩
    cases hzero.symm.trans h.2
  · have hne : b.toInt ≠ 0 := mt toInt_eq_zero_iff.1 hb
    rw [divS, if_neg hb]
    by_cases hpair : a = BitVec.intMin w ∧ b = -1
    · exact .inr (.inl ⟨hne, (overflows_iff hb).2 hpair, if_pos (by simpa using hpair)⟩)
    · refine .inr (.inr ⟨hne, mt (overflows_iff hb).1 hpair, if_neg (by simpa using hpair), ?_⟩)
      exact BitVec.toInt_sdiv_of_ne_or_ne a b (not_and_or.1 hpair)

lemma remS_cases (a b : BitVec w) :
    (b.toInt = 0 ∧ remS a b = .error .divisionByZero) ∨
      (b.toInt ≠ 0 ∧ remS a b = .ok (a.srem b)) := by
  by_cases hb : b = 0
  · exact .inl ⟨toInt_eq_zero_iff.2 hb, if_pos hb⟩
  · exact .inr ⟨mt toInt_eq_zero_iff.1 hb, if_neg hb⟩

/-- The unsigned operations fail together. -/
lemma divU_remU_cases (a b : BitVec w) :
    (b.toNat = 0 ∧ divU a b = .error .divisionByZero ∧ remU a b = .error .divisionByZero) ∨
      (b.toNat ≠ 0 ∧ divU a b = .ok (a / b) ∧ remU a b = .ok (a % b)) := by
  by_cases hb : b = 0
  · exact .inl ⟨toNat_eq_zero_iff.2 hb, if_pos hb, if_pos hb⟩
  · exact .inr ⟨mt toNat_eq_zero_iff.1 hb, if_neg hb, if_neg hb⟩

/-- The remainder toward zero of two integers. -/
lemma tmod_isRemainder (m : Int) {k : Int} (hk : k ≠ 0) :
    (m.tmod k = 0 ∨ (m.tmod k).sign = m.sign) ∧ (m.tmod k).natAbs < k.natAbs ∧
      k ∣ m - m.tmod k := by
  refine ⟨?_, ?_, m.tdiv k, ?_⟩
  · by_cases hdvd : k ∣ m
    · exact .inl (Int.tmod_eq_zero_of_dvd hdvd)
    · exact .inr (by rw [Int.sign_tmod, if_neg hdvd])
  · rw [Int.natAbs_tmod]
    exact Nat.mod_lt _ (Int.natAbs_pos.2 hk)
  · have hsum := Int.mul_tdiv_add_tmod m k
    omega

/-- The quotient and the remainder together give the first operand back, also where the quotient
wraps around. -/
lemma sdiv_mul_add_srem (a b : BitVec w) : a.sdiv b * b + a.srem b = a := by
  apply BitVec.eq_of_toInt_eq
  rw [BitVec.toInt_add, BitVec.toInt_mul, BitVec.toInt_sdiv, BitVec.toInt_srem, Int.bmod_mul_bmod,
    Int.bmod_add_bmod, Int.tdiv_mul_add_tmod, BitVec.toInt_bmod_cancel]

lemma udiv_mul_add_umod (a b : BitVec w) : a / b * b + a % b = a := by
  apply BitVec.eq_of_toNat_eq
  rw [BitVec.toNat_add, BitVec.toNat_mul, BitVec.toNat_udiv, BitVec.toNat_umod, Nat.mod_add_mod,
    Nat.div_add_mod', Nat.mod_eq_of_lt a.isLt]

/-! ### The two readings -/

/-- Division of signed words. -/
structure DividesSigned (a b : BitVec w) : Prop where
  div_zero_iff : divS a b = .error .divisionByZero ↔ b.toInt = 0
  div_overflow_iff : divS a b = .error .integerOverflow ↔ Overflows a b
  /-- otherwise there is a quotient, and it is the one toward zero -/
  div : b.toInt ≠ 0 → ¬ Overflows a b → ∃ q, divS a b = .ok q ∧ q.toInt = a.toInt.tdiv b.toInt
  rem_zero_iff : remS a b = .error .divisionByZero ↔ b.toInt = 0
  /-- otherwise there is a remainder, with the sign of the dividend and smaller than the divisor -/
  rem : b.toInt ≠ 0 → ∃ r, remS a b = .ok r ∧ (r.toInt = 0 ∨ r.toInt.sign = a.toInt.sign) ∧
    r.toInt.natAbs < b.toInt.natAbs ∧ b.toInt ∣ a.toInt - r.toInt
  rem_overflow : Overflows a b → remS a b = .ok 0
  identity : ∀ q, divS a b = .ok q → ∃ r, remS a b = .ok r ∧ q * b + r = a

/-- Division of unsigned words. -/
structure DividesUnsigned (a b : BitVec w) : Prop where
  div_zero_iff : divU a b = .error .divisionByZero ↔ b.toNat = 0
  /-- otherwise there is a quotient -/
  div : b.toNat ≠ 0 → ∃ q, divU a b = .ok q ∧ q.toNat = a.toNat / b.toNat
  rem_zero_iff : remU a b = .error .divisionByZero ↔ b.toNat = 0
  rem : b.toNat ≠ 0 → ∃ r, remU a b = .ok r ∧ r.toNat = a.toNat % b.toNat
  identity : ∀ q, divU a b = .ok q → ∃ r, remU a b = .ok r ∧ q * b + r = a

lemma dividesSigned (a b : BitVec w) : DividesSigned a b where
  div_zero_iff := by
    obtain h | h | h := divS_cases a b <;> simp [h]
  div_overflow_iff := by
    obtain h | h | h := divS_cases a b <;> simp [h]
  div := by
    obtain h | h | h := divS_cases a b <;> simp [h]
  rem_zero_iff := by
    obtain h | h := remS_cases a b <;> simp [h]
  rem hne := by
    obtain ⟨hzero, -⟩ | ⟨-, hrem⟩ := remS_cases a b
    · exact absurd hzero hne
    · refine ⟨a.srem b, hrem, ?_⟩
      rw [BitVec.toInt_srem]
      exact tmod_isRemainder a.toInt hne
  rem_overflow := by
    rintro ⟨-, hone⟩
    obtain ⟨hzero, -⟩ | ⟨-, hrem⟩ := remS_cases a b
    · cases hone.symm.trans hzero
    · have hint : (a.srem b).toInt = 0 := by
        rw [BitVec.toInt_srem, hone, Int.tmod_neg, Int.tmod_one]
      rw [hrem, toInt_eq_zero_iff.1 hint]
  identity q hq := by
    obtain ⟨-, -, hdiv⟩ | ⟨-, -, hdiv⟩ | ⟨hne, -, hdiv, -⟩ := divS_cases a b <;>
      cases hdiv.symm.trans hq
    obtain ⟨hzero, -⟩ | ⟨-, hrem⟩ := remS_cases a b
    · exact absurd hzero hne
    · exact ⟨a.srem b, hrem, sdiv_mul_add_srem a b⟩

lemma dividesUnsigned (a b : BitVec w) : DividesUnsigned a b where
  div_zero_iff := by
    obtain h | h := divU_remU_cases a b <;> simp [h]
  div := by
    obtain h | h := divU_remU_cases a b <;> simp [h]
  rem_zero_iff := by
    obtain h | h := divU_remU_cases a b <;> simp [h]
  rem := by
    obtain h | h := divU_remU_cases a b <;> simp [h]
  identity q hq := by
    obtain ⟨-, hdiv, -⟩ | ⟨-, hdiv, hrem⟩ := divU_remU_cases a b <;> cases hdiv.symm.trans hq
    exact ⟨a % b, hrem, udiv_mul_add_umod a b⟩

/-- In both readings and at every width the operations give the quotient and the remainder of the
operands, and trap exactly where there is no divisor, or no quotient of the width. -/
theorem division_exact {w : Nat} (a b : BitVec w) : DividesSigned a b ∧ DividesUnsigned a b :=
  ⟨dividesSigned a b, dividesUnsigned a b⟩

end WasmAot.Host
