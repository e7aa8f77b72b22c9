/-
# Integers in machine words

An integer of at most 64 bits can be put together in a word: a group of seven bits is moved to its
place by a shift and joined to the groups before it by a bitwise or, and whether the number is in
range is found out by shifts and comparisons of words.  Such operations are partial.  The distance
of a shift has to be less than the width of a word, a difference of natural numbers must not be
negative, and one of signed words must not leave their range.

The loops below compute with words and stop without a value at an operation that is not defined.
This never happens, and the loops are the readers of integers: the bits that a shift drops from the
last group do not matter, and what is tested are single groups, yet exactly the numbers out of range
are refused.
-/
import Mathlib.Data.Nat.Bitwise
import WasmAot.Proofs.Binary.Groups

namespace WasmAot.Binary

open Stateful

namespace Word

/-! ### Operations that are not always defined -/

/-- The difference, unless it is negative. -/
def difference? (a b : Nat) : Option Nat :=
  if b ≤ a then some (a - b) else none

/-- The word shifted to the left, unless the distance is the width of a word or more. -/
def shiftLeft? (word : BitVec 64) (distance : Nat) : Option (BitVec 64) :=
  if distance < 64 then some (word <<< distance) else none

/-- The word shifted to the right, unless the distance is the width of a word or more. -/
def shiftRight? (word : BitVec 64) (distance : Nat) : Option (BitVec 64) :=
  if distance < 64 then some (word >>> distance) else none

/-- The word with the other sign, unless there is none. -/
def negated? (word : BitVec 64) : Option (BitVec 64) :=
  if word.negOverflow then none else some (-word)

/-- The difference of signed words, unless it is out of range. -/
def signedDifference? (a b : BitVec 64) : Option (BitVec 64) :=
  if a.ssubOverflow b then none else some (a - b)

/-- Goes on with the result of an operation, or stops without a value. -/
def attempt {α β : Type} (x : Option α) (next : α → Decoder (Option β)) : Decoder (Option β) :=
  match x with
  | some a => next a
  | none => return none

/-! ### Loops over the groups -/

/-- The group of a byte. -/
def group (b : UInt8) : BitVec 64 :=
  (b &&& 0x7f).toBitVec.setWidth 64

/-- The group has bits beyond the width.  This is looked at only if it ends there. -/
def exceeds? (bits shift : Nat) (group : BitVec 64) : Option Bool :=
  if bits < shift + 7 then do
    let known ← difference? bits shift
    let beyond ← shiftRight? group known
    return beyond ≠ 0
  else some false

/-- Reads the bytes of an unsigned integer.  `word` has the bits that are known. -/
def unsignedFrom (start bits : Nat) :
    (room shift : Nat) → (word : BitVec 64) → Decoder (Option (BitVec 64))
  | 0, _, _ => lexFault start .integerOverflow
  | room + 1, shift, word => do
    let b ← byte
    attempt (exceeds? bits shift (group b)) fun exceeds =>
      if exceeds then lexFault start .integerOverflow
      else
        attempt (shiftLeft? (group b) shift) fun part =>
          if b &&& 0x80 = 0 then return some (word ||| part)
          else unsignedFrom start bits room (shift + 7) (word ||| part)

/-- An unsigned integer of at most `bits` bits. -/
def unsigned (bits : Nat) : Decoder (Option (BitVec 64)) := do
  unsignedFrom (← position) bits (lebBytes bits) 0 0

/-- The word with the sign of its last group in all the bits above it. -/
def extended? (last : UInt8) (shift : Nat) (word : BitVec 64) : Option (BitVec 64) :=
  if shift < 64 ∧ last &&& 0x40 ≠ 0 then do
    let ones ← shiftLeft? (-1) shift
    return word ||| ones
  else some word

/-- The word is out of range, as a signed number.  Of 64 bits there is nothing out of range. -/
def outside? (bits : Nat) (word : BitVec 64) : Option Bool :=
  if bits < 64 then do
    let distance ← difference? bits 1
    let power ← shiftLeft? 1 distance
    let low ← negated? power
    let high ← signedDifference? power 1
    return word.slt low || high.slt word
  else some false

/-- Reads the bytes of a signed integer.  Of 64 bits, the last group that there can be has one bit
and its copies. -/
def signedFrom (start bits : Nat) :
    (room shift : Nat) → (word : BitVec 64) → Decoder (Option (BitVec 64))
  | 0, _, _ => lexFault start .integerOverflow
  | room + 1, shift, word => do
    let b ← byte
    if room = 0 ∧ bits = 64 ∧ b &&& 0x80 = 0 ∧ b ≠ 0x00 ∧ b ≠ 0x7f then
      lexFault start .integerOverflow
    else
      attempt (shiftLeft? (group b) shift) fun part =>
        if b &&& 0x80 = 0 then
          attempt (extended? b (shift + 7) (word ||| part)) fun word =>
            attempt (outside? bits word) fun outside =>
              if outside then lexFault start .integerOverflow else return some word
        else signedFrom start bits room (shift + 7) (word ||| part)

/-- A signed integer of at most `bits` bits. -/
def signed (bits : Nat) : Decoder (Option (BitVec 64)) := do
  signedFrom (← position) bits (lebBytes bits) 0 0

/-! ### Bits and groups -/

lemma bit_eq_zero_iff (b : UInt8) {i : Nat} (h : i < 8) :
    b &&& UInt8.ofNat (2 ^ i) = 0 ↔ b.toNat / 2 ^ i % 2 = 0 := by
  have hpow : 2 ^ i < 256 := Nat.pow_lt_pow_right (by decide) h
  rw [← UInt8.toNat_inj, UInt8.toNat_and, UInt8.toNat_ofNat_of_lt' hpow, Nat.and_two_pow,
    Nat.testBit_eq_decide_div_mod_eq]
  by_cases hbit : b.toNat / 2 ^ i % 2 = 1
  · simp [hbit]
  · simp [hbit]
    omega

lemma mark_eq_zero_iff (b : UInt8) : b &&& 0x80 = 0 ↔ lebContinues b = false := by
  have hb := b.toNat_lt
  rw [show (0x80 : UInt8) = UInt8.ofNat (2 ^ 7) from rfl, bit_eq_zero_iff b (by decide),
    lebContinues, decide_eq_false_iff_not]
  omega

lemma sign_eq_zero_iff (b : UInt8) : b &&& 0x40 = 0 ↔ lebGroup b < 64 := by
  rw [show (0x40 : UInt8) = UInt8.ofNat (2 ^ 6) from rfl, bit_eq_zero_iff b (by decide), lebGroup]
  omega

lemma group_eq (b : UInt8) : group b = BitVec.ofNat 64 (lebGroup b) := by
  have hgroup : (b &&& 0x7f).toNat = lebGroup b := by
    rw [UInt8.toNat_and]
    exact Nat.and_two_pow_sub_one_eq_mod b.toNat 7
  apply BitVec.eq_of_toNat_eq
  rw [group, ← hgroup, BitVec.toNat_setWidth, BitVec.toNat_ofNat, UInt8.toNat_toBitVec]

lemma lebGroup_lt (b : UInt8) : lebGroup b < 128 :=
  Nat.mod_lt _ (by decide)

/-- A group at its place, above the bits that are known, is added to them. -/
lemma join_group {value shift : Nat} (h : value < 2 ^ shift) (group : Nat) :
    BitVec.ofNat 64 value ||| BitVec.ofNat 64 group <<< shift =
      BitVec.ofNat 64 (value + group * 2 ^ shift) := by
  apply BitVec.eq_of_toNat_eq
  have hplace : (BitVec.ofNat 64 group <<< shift).toNat = group * 2 ^ shift % 2 ^ 64 := by
    simp [Nat.shiftLeft_eq]
  rw [BitVec.toNat_or, hplace, BitVec.toNat_ofNat, BitVec.toNat_ofNat, ← Nat.or_mod_two_pow,
    Nat.or_comm, Nat.mul_comm, ← Nat.two_pow_add_eq_or_of_lt h, Nat.add_comm]

/-- With one more group there are seven more bits. -/
lemma join_lt {value shift : Nat} (h : value < 2 ^ shift) (b : UInt8) :
    value + lebGroup b * 2 ^ shift < 2 ^ (shift + 7) := by
  have hgroup : lebGroup b * 2 ^ shift ≤ 127 * 2 ^ shift :=
    Nat.mul_le_mul_right _ (Nat.le_of_lt_succ (lebGroup_lt b))
  rw [Nat.pow_add]
  omega

/-! ### Unsigned integers -/

/-- The test on a single group finds out whether the number is too large. -/
lemma exceeds?_eq {bits shift value : Nat} (hshift : shift < bits)
    (hvalue : value < 2 ^ shift) (b : UInt8) :
    exceeds? bits shift (group b) = some (decide (2 ^ bits ≤ value + lebGroup b * 2 ^ shift)) := by
  have hgroup := lebGroup_lt b
  have hsplit : 2 ^ bits = 2 ^ (bits - shift) * 2 ^ shift := by
    rw [← Nat.pow_add, Nat.sub_add_cancel (Nat.le_of_lt hshift)]
  -- below the group there is less than one unit of it
  have hiff : 2 ^ bits ≤ value + lebGroup b * 2 ^ shift ↔ 2 ^ (bits - shift) ≤ lebGroup b := by
    constructor
    · intro hle
      by_contra hlt
      have hmul : (lebGroup b + 1) * 2 ^ shift ≤ 2 ^ (bits - shift) * 2 ^ shift :=
        Nat.mul_le_mul_right _ (by omega)
      rw [Nat.add_mul] at hmul
      omega
    · intro hle
      have hmul := Nat.mul_le_mul_right (2 ^ shift) hle
      omega
  rw [exceeds?]
  -- only the last group can reach beyond the width
  by_cases hends : bits < shift + 7
  · have hbeyond : BitVec.ofNat 64 (lebGroup b) >>> (bits - shift) ≠ 0 ↔
        2 ^ (bits - shift) ≤ lebGroup b := by
      have hzero : (BitVec.ofNat 64 (lebGroup b) >>> (bits - shift)).toNat =
          lebGroup b / 2 ^ (bits - shift) := by
        rw [BitVec.toNat_ushiftRight, BitVec.toNat_ofNat, Nat.mod_eq_of_lt (by omega),
          Nat.shiftRight_eq_div_pow]
      have hpos := Nat.two_pow_pos (bits - shift)
      rw [Ne, ← BitVec.toNat_inj, hzero, show (0 : BitVec 64).toNat = 0 from rfl,
        Nat.div_eq_zero_iff]
      omega
    have hdistance : bits - shift < 64 := by omega
    rw [if_pos hends, difference?, if_pos (Nat.le_of_lt hshift), group_eq]
    simp only [Option.bind_eq_bind, Option.bind_some, shiftRight?, if_pos hdistance,
      Option.pure_def, hbeyond, hiff]
  · have hpow : 2 ^ 7 ≤ 2 ^ (bits - shift) := Nat.pow_le_pow_right (by decide) (by omega)
    have hfits : ¬ 2 ^ bits ≤ value + lebGroup b * 2 ^ shift := by
      rw [hiff]
      omega
    rw [if_neg hends, decide_eq_false hfits]

/-- In every turn of the loop the group begins inside of the width.  So the width exceeds the shift,
and the shift is less than the width of a word. -/
lemma unsignedFrom_eq {start bits room shift value : Nat} (hbits : bits ≤ 64)
    (hroom : shift + 7 * room < bits + 7) (hvalue : value < 2 ^ shift) :
    unsignedFrom start bits room shift (BitVec.ofNat 64 value) = (do
      return some (BitVec.ofNat 64 (← Binary.unsignedFrom start bits room shift value))) := by
  induction room generalizing shift value with
  | zero => rfl
  | succ room ih =>
    have hshift : shift < bits := by omega
    rw [unsignedFrom, unsignedFrom_succ, bind_assoc]
    congr 1
    funext b
    rw [exceeds?_eq hshift hvalue]
    simp only [attempt, shiftLeft?, if_pos (Nat.lt_of_lt_of_le hshift hbits), group_eq,
      join_group hvalue, mark_eq_zero_iff, decide_eq_true_eq]
    by_cases hfits : 2 ^ bits ≤ value + lebGroup b * 2 ^ shift
    · rw [if_pos hfits, if_pos hfits]
      rfl
    · rw [if_neg hfits, if_neg hfits]
      cases hcontinues : lebContinues b with
      | true =>
        rw [if_neg (by simp), if_pos rfl]
        exact ih (by omega) (join_lt hvalue b)
      | false =>
        have hword : BitVec.ofNat 64 ((value + lebGroup b * 2 ^ shift) % 2 ^ wordBits) =
            BitVec.ofNat 64 (value + lebGroup b * 2 ^ shift) := by
          apply BitVec.eq_of_toNat_eq
          simp [wordBits]
        rw [if_pos rfl, if_neg (by simp), pure_bind, hword]

/-- The loop over words reads unsigned integers, and all of its operations are defined. -/
lemma unsigned_eq {bits : Nat} (hbits : bits ≤ 64) :
    unsigned bits = (do return some (BitVec.ofNat 64 (← Binary.unsigned bits))) := by
  have hroom : 0 + 7 * lebBytes bits < bits + 7 := by
    rw [lebBytes]
    omega
  rw [unsigned, Binary.unsigned, bind_assoc]
  congr 1
  funext start
  exact unsignedFrom_eq hbits hroom (by decide)

-- of 71 bits, the eleventh group would have to be shifted out of the word
example : unsigned 71 ⟨0, List.replicate 10 0x80 ++ [0x00]⟩ = .ok none ⟨11, []⟩ := rfl

/-! ### Signed integers -/

/-- The power of two that bounds the range on both sides. -/
lemma toInt_power {distance : Nat} (h : distance < 63) :
    ((1 : BitVec 64) <<< distance).toInt = 2 ^ distance := by
  have hpow : 2 ^ distance < 2 ^ 63 := Nat.pow_lt_pow_right (by decide) h
  have hnat : ((1 : BitVec 64) <<< distance).toNat = 2 ^ distance := by
    simp [Nat.shiftLeft_eq]
    omega
  rw [BitVec.toInt_eq_toNat_of_lt (by omega), hnat]
  push_cast
  rfl

/-- The bounds are computed without leaving the range of words, and compared with the number. -/
lemma outside?_eq {bits : Nat} (hpos : 0 < bits) (hbits : bits ≤ 64) (word : BitVec 64) :
    outside? bits word = some (!fitsSigned bits word.toInt) := by
  rw [outside?]
  by_cases hwidth : bits < 64
  · have hpower := @toInt_power (bits - 1) (by omega)
    -- a power below that of a word is so small that neither bound overflows
    have hlarge : (2 : Int) ^ (bits - 1) ≤ 2 ^ 62 := pow_le_pow_right₀ (by decide) (by omega)
    have hone : (1 : Int) ≤ 2 ^ (bits - 1) := one_le_pow₀ (by decide)
    have hunit : (1 : BitVec 64).toInt = 1 := by decide
    generalize hdef : (1 : BitVec 64) <<< (bits - 1) = power at hpower
    have hneg : ¬ power.negOverflow = true := by
      simp only [BitVec.negOverflow, hpower, beq_iff_eq]
      omega
    have hsub : ¬ power.ssubOverflow 1 = true := by
      simp only [BitVec.ssubOverflow, hpower, hunit, Bool.or_eq_true, decide_eq_true_eq]
      omega
    have hlow : (-power).toInt = -2 ^ (bits - 1) := by
      rw [BitVec.toInt_neg_of_not_negOverflow hneg, hpower]
    have hhigh : (power - 1).toInt = 2 ^ (bits - 1) - 1 := by
      rw [BitVec.toInt_sub_of_not_ssubOverflow hsub, hpower, hunit]
    have hshift : shiftLeft? 1 (bits - 1) = some power := by
      rw [shiftLeft?, if_pos (by omega), hdef]
    have hnegated : negated? power = some (-power) := if_neg hneg
    have hdifference : signedDifference? power 1 = some (power - 1) := if_neg hsub
    rw [if_pos hwidth, difference?, if_pos (show 1 ≤ bits from hpos)]
    simp only [Option.bind_eq_bind, Option.bind_some, hshift, hnegated, hdifference,
      Option.pure_def, Option.some.injEq, BitVec.slt, hlow, hhigh]
    by_cases hfits : fitsSigned bits word.toInt = true
    · have hrange := fitsSigned_iff.1 hfits
      rw [hfits, decide_eq_false (by omega), decide_eq_false (by omega)]
      rfl
    · rw [Bool.eq_false_of_not_eq_true hfits]
      rw [fitsSigned_iff] at hfits
      simp only [Bool.not_false, Bool.or_eq_true, decide_eq_true_eq]
      omega
  -- of 64 bits, every word is in range
  · obtain rfl : bits = 64 := by omega
    rw [if_neg hwidth, fitsSigned_toInt]
    rfl

/-- The signed number of a word, from any number that its bits are the low bits of. -/
lemma toInt_word {n : Nat} {v c : Int} (h : (n : Int) = v + 2 ^ 64 * c) (hlow : -2 ^ 63 ≤ v)
    (hhigh : v < 2 ^ 63) : (BitVec.ofNat 64 n).toInt = v := by
  have hmod : (v + 2 ^ 64 * c).bmod (2 ^ 64) = v.bmod (2 ^ 64) :=
    Int.add_mul_bmod_self_left v (2 ^ 64) c
  rw [BitVec.toInt_ofNat', h, hmod, Int.bmod_eq_of_le (by simp; omega) (by simp; omega)]

/-- The sign of the last group is that of the number, and goes up to the highest bit of the word. -/
lemma extended?_eq {shift value : Nat} (hshift : shift + 7 < 64) (hvalue : value < 2 ^ shift)
    (b : UInt8) :
    ∃ word, extended? b (shift + 7) (BitVec.ofNat 64 (value + lebGroup b * 2 ^ shift)) = some word ∧
      word.toInt = signedValue (shift + 7) (value + lebGroup b * 2 ^ shift) := by
  have hjoined := join_lt hvalue b
  have hwidth : 2 ^ (shift + 7) ≤ 2 ^ 63 := Nat.pow_le_pow_right (by decide) (by omega)
  have hunits : 2 ^ (shift + 7) = 128 * 2 ^ shift := by
    rw [Nat.pow_add, Nat.mul_comm]
  have hsigned : shift + 7 < 64 ∧ b &&& 0x40 ≠ 0 ↔ ¬ lebGroup b < 64 := by
    rw [ne_eq, sign_eq_zero_iff]
    exact and_iff_right hshift
  rw [extended?, signedValue_eq]
  by_cases hsign : lebGroup b < 64
  · have hgroup : lebGroup b * 2 ^ shift ≤ 63 * 2 ^ shift := Nat.mul_le_mul_right _ (by omega)
    refine ⟨_, if_neg fun h => hsigned.1 h hsign, ?_⟩
    rw [if_pos (by omega)]
    exact toInt_word (c := 0) (by omega) (by omega) (by omega)
  · have hgroup : 64 * 2 ^ shift ≤ lebGroup b * 2 ^ shift := Nat.mul_le_mul_right _ (by omega)
    -- the bits that are set are those of the largest word, from the end of the group on
    have hones : (-1 : BitVec 64) = BitVec.ofNat 64 (2 ^ 64 - 1) := by decide
    rw [if_pos (hsigned.2 hsign), if_neg (by omega), hones, shiftLeft?, if_pos hshift]
    refine ⟨_, rfl, ?_⟩
    rw [join_group hjoined]
    have hcast : ((2 ^ (shift + 7) : Nat) : Int) = 2 ^ (shift + 7) := by push_cast; rfl
    refine toInt_word (c := 2 ^ (shift + 7)) ?_ (by omega) (by omega)
    push_cast
    ring

/-- In the tenth group only the lowest bit has a place in the word.  The number is in range exactly
if the other bits are copies of it, and then they are not missed. -/
lemma tenth_group {value : Nat} (hvalue : value < 2 ^ 63) {b : UInt8}
    (hlast : lebContinues b = false) :
    (fitsSigned 64 (signedValue 70 (value + lebGroup b * 2 ^ 63)) = true ↔ b = 0x00 ∨ b = 0x7f) ∧
      (b = 0x00 ∨ b = 0x7f →
        (BitVec.ofNat 64 (value + lebGroup b * 2 ^ 63)).toInt =
          signedValue 70 (value + lebGroup b * 2 ^ 63)) := by
  have hgroup : lebGroup b = b.toNat := by
    rw [lebContinues, decide_eq_false_iff_not] at hlast
    rw [lebGroup, Nat.mod_eq_of_lt (by omega)]
  have hbyte : b = 0x00 ∨ b = 0x7f ↔ lebGroup b = 0 ∨ lebGroup b = 127 := by
    rw [hgroup, ← UInt8.toNat_inj, ← UInt8.toNat_inj]
    rfl
  have hlt := lebGroup_lt b
  rw [hbyte, fitsSigned_iff, signedValue_eq]
  by_cases hsign : lebGroup b < 64
  · rw [if_pos (by omega)]
    refine ⟨by omega, fun h => toInt_word (c := 0) ?_ ?_ ?_⟩ <;> omega
  · rw [if_neg (by omega)]
    refine ⟨by omega, fun h => toInt_word (c := 64) ?_ ?_ ?_⟩ <;> omega

/-- What is done with the last byte of a signed integer: unless it is refused at once, it completes
a word with the number, whose range is tested. -/
lemma last_group {bits room shift value : Nat} (hpos : 0 < bits) (hbits : bits ≤ 64)
    (hroom : shift + 7 * (room + 1) = 7 * lebBytes bits) (hvalue : value < 2 ^ shift) {b : UInt8}
    (hlast : lebContinues b = false) :
    (¬ fitsSigned bits (signedValue (shift + 7) (value + lebGroup b * 2 ^ shift)) = true ∧
        room = 0 ∧ bits = 64 ∧ b ≠ 0x00 ∧ b ≠ 0x7f) ∨
      (¬ (room = 0 ∧ bits = 64 ∧ b &&& 0x80 = 0 ∧ b ≠ 0x00 ∧ b ≠ 0x7f) ∧
        ∃ word, extended? b (shift + 7) (BitVec.ofNat 64 (value + lebGroup b * 2 ^ shift)) =
            some word ∧
          word.toInt = signedValue (shift + 7) (value + lebGroup b * 2 ^ shift)) := by
  rw [lebBytes] at hroom
  by_cases hinside : shift + 7 < 64
  · by_cases hrefused : room = 0 ∧ bits = 64 ∧ b &&& 0x80 = 0 ∧ b ≠ 0x00 ∧ b ≠ 0x7f
    · omega
    · exact .inr ⟨hrefused, extended?_eq hinside hvalue b⟩
  · -- only the tenth group ends outside of the word
    obtain ⟨rfl, rfl, rfl⟩ : shift = 63 ∧ room = 0 ∧ bits = 64 := by omega
    obtain ⟨hrange, hword⟩ := tenth_group hvalue hlast
    by_cases hcopies : b = 0x00 ∨ b = 0x7f
    · refine .inr ⟨by tauto, _, if_neg (by omega), hword hcopies⟩
    · exact .inl ⟨fun h => hcopies (hrange.1 h), rfl, rfl, by tauto⟩

lemma signedFrom_eq {start bits room shift value : Nat} (hpos : 0 < bits) (hbits : bits ≤ 64)
    (hroom : shift + 7 * room = 7 * lebBytes bits) (hvalue : value < 2 ^ shift) :
    signedFrom start bits room shift (BitVec.ofNat 64 value) = (do
      return some (BitVec.ofInt 64 (← Binary.signedFrom start bits room shift value))) := by
  induction room generalizing shift value with
  | zero => rfl
  | succ room ih =>
    have hshift : shift < 64 := by
      rw [lebBytes] at hroom
      omega
    rw [signedFrom, signedFrom_succ, bind_assoc]
    congr 1
    funext b
    simp only [attempt, shiftLeft?, if_pos hshift, group_eq, join_group hvalue]
    cases hcontinues : lebContinues b with
    | true =>
      have hmark : b &&& 0x80 ≠ 0 := fun h => by simp [(mark_eq_zero_iff b).1 h] at hcontinues
      rw [if_neg fun h => hmark h.2.2.1, if_neg hmark, if_pos rfl]
      exact ih (by omega) (join_lt hvalue b)
    | false =>
      have hmark : b &&& 0x80 = 0 := (mark_eq_zero_iff b).2 hcontinues
      have hword : ¬ wordBits < bits := by
        rw [wordBits]
        omega
      rw [if_pos hmark, if_neg Bool.false_ne_true, if_neg hword]
      rcases last_group hpos hbits hroom hvalue hcontinues with
        ⟨hrange, hlast, hwide, hbyte⟩ | ⟨hkept, word, hextended, hnumber⟩
      · rw [if_pos ⟨hlast, hwide, hmark, hbyte⟩, if_neg hrange]
        rfl
      · rw [if_neg hkept, hextended, ← hnumber]
        dsimp only
        rw [outside?_eq hpos hbits]
        cases fitsSigned bits word.toInt with
        | true =>
          rw [if_pos rfl, pure_bind, BitVec.ofInt_toInt]
          rfl
        | false => rfl

/-- The loop over words reads signed integers, and all of its operations are defined. -/
lemma signed_eq {bits : Nat} (hpos : 0 < bits) (hbits : bits ≤ 64) :
    signed bits = (do return some (BitVec.ofInt 64 (← Binary.signed bits))) := by
  rw [signed, Binary.signed, bind_assoc]
  congr 1
  funext start
  exact signedFrom_eq hpos hbits (Nat.zero_add _) (by decide)

end Word

end WasmAot.Binary
