/-
# Which bytes are read as integers

At any place of any input there are three possibilities, by the marks of the bytes that an integer
of some width may have: one of them is the last byte of an integer, or all of them announce another
byte, or the input ends before that is known.  The readers of integers are exact.  They accept the
integers that are in range, they refuse those that are not and those that do not end in time, and
what remains is an unexpected end of the input.

The same number can be written with superfluous groups, zeros or copies of its sign, as long as
there are no more bytes than the width allows for.  All of these spellings are read as the number.
-/
import Mathlib.Algebra.Order.Floor.Div
import Mathlib.GroupTheory.GroupAction.Ring
import Mathlib.Tactic.SplitIfs
import WasmAot.Proofs.Binary.Words

namespace WasmAot.Binary

open Stateful

/-! ### Marks -/

/-- Every one of the bytes announces another. -/
def Continued (bytes : List UInt8) : Prop :=
  ∀ b ∈ bytes, lebContinues b = true

lemma continued_cons {b : UInt8} {bytes : List UInt8} :
    Continued (b :: bytes) ↔ lebContinues b = true ∧ Continued bytes :=
  List.forall_mem_cons

/-- What the marks say about the first `room` bytes of an input. -/
inductive Marks (room : Nat) : List UInt8 → Prop
  /-- one of them is the last byte of an integer -/
  | ends (used rest : List UInt8) (hgroups : IsGroups used) (hlength : used.length ≤ room) :
      Marks room (used ++ rest)
  /-- all of them announce another byte -/
  | overlong (used rest : List UInt8) (hmarked : Continued used) (hlength : used.length = room) :
      Marks room (used ++ rest)
  /-- there are fewer bytes, and all of them announce another -/
  | cut {input : List UInt8} (hmarked : Continued input) (hlength : input.length < room) :
      Marks room input

lemma marks (room : Nat) (input : List UInt8) : Marks room input := by
  induction room generalizing input with
  | zero => exact .overlong [] input nofun rfl
  | succ room ih =>
    cases input with
    | nil => exact .cut nofun (Nat.succ_pos room)
    | cons b input =>
      cases hb : lebContinues b with
      | false => exact .ends [b] input hb (by simp)
      | true =>
        -- the rest of the input has one byte less to come
        cases ih input with
        | ends used rest hgroups hlength =>
          exact .ends (b :: used) rest (isGroups_cons hb hgroups) (by simpa using hlength)
        | overlong used rest hmarked hlength =>
          exact .overlong (b :: used) rest (continued_cons.2 ⟨hb, hmarked⟩) (by simpa using hlength)
        | cut hmarked hlength =>
          exact .cut (continued_cons.2 ⟨hb, hmarked⟩) (by simpa using hlength)

lemma isGroups_cons_iff {b : UInt8} {bytes : List UInt8} :
    IsGroups (b :: bytes) ↔
      (lebContinues b = false ∧ bytes = []) ∨ (lebContinues b = true ∧ IsGroups bytes) := by
  cases bytes with
  | nil => simp [IsGroups]
  | cons => simp [IsGroups]

/-- Of the bytes of an integer the last one is not marked. -/
lemma IsGroups.not_continued {bytes : List UInt8} (h : IsGroups bytes) : ¬ Continued bytes := by
  induction bytes with
  | nil => exact absurd h id
  | cons b bytes ih =>
    intro hmarked
    rw [continued_cons] at hmarked
    rcases isGroups_cons_iff.1 h with ⟨hb, -⟩ | ⟨-, hrest⟩
    · simp [hb] at hmarked
    · exact ih hrest hmarked.2

lemma IsGroups.dropLast {bytes : List UInt8} (h : IsGroups bytes) : Continued bytes.dropLast := by
  induction bytes with
  | nil => exact absurd h id
  | cons b bytes ih =>
    rcases isGroups_cons_iff.1 h with ⟨-, rfl⟩ | ⟨hb, hrest⟩
    · exact nofun
    · cases bytes with
      | nil => exact absurd hrest id
      | cons b' bytes => exact continued_cons.2 ⟨hb, ih hrest⟩

/-- An input has only one place where its first integer ends. -/
lemma IsGroups.unique {used used' rest rest' : List UInt8} (h : IsGroups used) (h' : IsGroups used')
    (heq : used ++ rest = used' ++ rest') : used = used' := by
  induction used generalizing used' with
  | nil => exact absurd h id
  | cons b used ih =>
    cases used' with
    | nil => exact absurd h' id
    | cons b' used' =>
      obtain ⟨rfl, htail⟩ := List.cons.inj heq
      rcases isGroups_cons_iff.1 h with ⟨hb, rfl⟩ | ⟨hb, hrest⟩
      · rcases isGroups_cons_iff.1 h' with ⟨-, rfl⟩ | ⟨hb', -⟩
        · rfl
        · simp [hb] at hb'
      · rcases isGroups_cons_iff.1 h' with ⟨hb', -⟩ | ⟨-, hrest'⟩
        · simp [hb] at hb'
        · rw [ih hrest hrest' htail]

/-! ### Signed integers -/

section

variable {start bits room shift value offset : Nat} {used rest input : List UInt8}

/-- A signed integer that ends in time is accepted or refused by its range. -/
lemma signedFrom_groups (hbits : bits ≤ wordBits) (hgroups : IsGroups used)
    (hlength : used.length ≤ room) :
    signedFrom start bits room shift value ⟨offset, used ++ rest⟩ =
      if fitsSigned bits
          (signedValue (shift + 7 * used.length) (value + groupsValue used * 2 ^ shift)) then
        .ok (signedValue (shift + 7 * used.length) (value + groupsValue used * 2 ^ shift))
          ⟨offset + used.length, rest⟩
      else .error (.lexing start .integerOverflow) ⟨offset + used.length, rest⟩ := by
  induction used generalizing room shift value offset with
  | nil => exact absurd hgroups id
  | cons b used ih =>
    obtain ⟨room, rfl⟩ : ∃ n, room = n + 1 := Nat.exists_eq_add_one.2 (by simp at hlength; omega)
    rw [signedFrom_succ, List.cons_append, bind_run_ok (byte_run ..), groupsValue_cons,
      ← Nat.add_assoc]
    dsimp only
    -- either this is the last group, or there are more behind it
    rcases isGroups_cons_iff.1 hgroups with ⟨hb, rfl⟩ | ⟨hb, hrest⟩
    · rw [hb, if_neg Bool.false_ne_true, if_neg (by omega)]
      simp only [groupsValue, Nat.zero_mul, Nat.add_zero, List.length_singleton, Nat.mul_one]
      split <;> rfl
    · have hplace : offset + 1 + used.length = offset + (b :: used).length := by
        rw [List.length_cons]
        omega
      have hwidth : shift + 7 + 7 * used.length = shift + 7 * (b :: used).length := by
        rw [List.length_cons]
        omega
      rw [hb, if_pos rfl, ih hrest (by simpa using hlength), hplace, hwidth]

/-- It has to end in time. -/
lemma signedFrom_overlong (hmarked : Continued used) (hlength : used.length = room) :
    signedFrom start bits room shift value ⟨offset, used ++ rest⟩ =
      .error (.lexing start .integerOverflow) ⟨offset + used.length, rest⟩ := by
  induction used generalizing room shift value offset with
  | nil =>
    subst hlength
    rfl
  | cons b used ih =>
    subst hlength
    rw [continued_cons] at hmarked
    rw [List.length_cons, signedFrom_succ, List.cons_append, bind_run_ok (byte_run ..)]
    dsimp only
    rw [hmarked.1, if_pos rfl, ih hmarked.2 rfl, Nat.add_assoc, Nat.add_comm 1]

lemma signedFrom_cut (hmarked : Continued input) (hlength : input.length < room) :
    signedFrom start bits room shift value ⟨offset, input⟩ =
      .error (.lexing (offset + input.length) .unexpectedEnd) ⟨offset + input.length, []⟩ := by
  induction input generalizing room shift value offset with
  | nil =>
    obtain ⟨room, rfl⟩ := Nat.exists_eq_add_one.2 hlength
    rfl
  | cons b input ih =>
    obtain ⟨room, rfl⟩ : ∃ n, room = n + 1 := Nat.exists_eq_add_one.2 (by omega)
    rw [continued_cons] at hmarked
    rw [signedFrom_succ, bind_run_ok (byte_run ..)]
    dsimp only
    rw [hmarked.1, if_pos rfl, ih hmarked.2 (by simpa using hlength), List.length_cons,
      Nat.add_assoc, Nat.add_comm 1]

end

/-! ### Unsigned integers -/

lemma groupsValue_append (xs ys : List UInt8) :
    groupsValue (xs ++ ys) = groupsValue xs + 2 ^ (7 * xs.length) * groupsValue ys := by
  induction xs with
  | nil => simp [groupsValue]
  | cons b xs ih =>
    rw [List.cons_append, groupsValue, groupsValue, ih, List.length_cons]
    ring

lemma groupsValue_take_le (j : Nat) (bytes : List UInt8) :
    groupsValue (bytes.take j) ≤ groupsValue bytes := by
  conv_rhs => rw [← List.take_append_drop j bytes, groupsValue_append]
  exact Nat.le_add_right _ _

section

variable {start bits room shift value offset : Nat} {used rest input : List UInt8}

/-- A number that is too large is refused at the group with which it gets too large. -/
lemma unsignedFrom_exceeds (hvalue : value < 2 ^ bits) (hmarked : Continued used.dropLast)
    (hlength : used.length ≤ room) (hlarge : 2 ^ bits ≤ value + groupsValue used * 2 ^ shift) :
    ∃ c, unsignedFrom start bits room shift value ⟨offset, used ++ rest⟩ =
      .error (.lexing start .integerOverflow) c := by
  induction used generalizing room shift value offset with
  | nil =>
    rw [groupsValue] at hlarge
    omega
  | cons b used ih =>
    obtain ⟨room, rfl⟩ : ∃ n, room = n + 1 := Nat.exists_eq_add_one.2 (by simp at hlength; omega)
    rw [groupsValue_cons, ← Nat.add_assoc] at hlarge
    rw [unsignedFrom_succ, List.cons_append, bind_run_ok (byte_run ..)]
    by_cases hfits : 2 ^ bits ≤ value + lebGroup b * 2 ^ shift
    · rw [if_pos hfits]
      exact ⟨_, rfl⟩
    · -- this was not the last group
      cases used with
      | nil =>
        rw [groupsValue] at hlarge
        omega
      | cons b' used =>
        rw [List.dropLast_cons_cons, continued_cons] at hmarked
        rw [if_neg hfits, hmarked.1, if_pos rfl]
        exact ih (by omega) hmarked.2 (by simpa using hlength) hlarge

lemma unsignedFrom_overlong (hmarked : Continued used) (hlength : used.length = room) :
    ∃ c, unsignedFrom start bits room shift value ⟨offset, used ++ rest⟩ =
      .error (.lexing start .integerOverflow) c := by
  induction used generalizing room shift value offset with
  | nil =>
    subst hlength
    exact ⟨_, rfl⟩
  | cons b used ih =>
    subst hlength
    rw [continued_cons] at hmarked
    rw [List.length_cons, unsignedFrom_succ, List.cons_append, bind_run_ok (byte_run ..)]
    rw [hmarked.1, if_pos rfl]
    split
    · exact ⟨_, rfl⟩
    · exact ih hmarked.2 rfl

lemma unsignedFrom_cut (hmarked : Continued input) (hlength : input.length < room)
    (hfits : value + groupsValue input * 2 ^ shift < 2 ^ bits) :
    unsignedFrom start bits room shift value ⟨offset, input⟩ =
      .error (.lexing (offset + input.length) .unexpectedEnd) ⟨offset + input.length, []⟩ := by
  induction input generalizing room shift value offset with
  | nil =>
    obtain ⟨room, rfl⟩ := Nat.exists_eq_add_one.2 hlength
    rfl
  | cons b input ih =>
    obtain ⟨room, rfl⟩ : ∃ n, room = n + 1 := Nat.exists_eq_add_one.2 (by omega)
    rw [continued_cons] at hmarked
    rw [groupsValue_cons, ← Nat.add_assoc] at hfits
    rw [unsignedFrom_succ, bind_run_ok (byte_run ..)]
    rw [if_neg (by omega), hmarked.1, if_pos rfl, ih hmarked.2 (by simpa using hlength) hfits,
      List.length_cons, Nat.add_assoc, Nat.add_comm 1]

end

/-! ### Places in the input -/

namespace Cursor

/-- The first integer at this place has `k` bytes: of these, only the last one is not marked. -/
def EndsAfter (c : Cursor) (k : Nat) : Prop :=
  k ≤ c.remaining ∧ IsGroups (c.rest.take k)

/-- The first `k` bytes at this place all announce another one. -/
def GoesOnFor (c : Cursor) (k : Nat) : Prop :=
  k ≤ c.remaining ∧ Continued (c.rest.take k)

lemma EndsAfter.not_goesOnFor {c : Cursor} {k n : Nat} (h : c.EndsAfter k) (hle : k ≤ n) :
    ¬ c.GoesOnFor n := by
  intro hmarked
  refine h.2.not_continued fun b hb => hmarked.2 b ?_
  rw [← Nat.min_eq_left hle, ← List.take_take] at hb
  exact List.mem_of_mem_take hb

lemma EndsAfter.unique {c : Cursor} {k n : Nat} (h : c.EndsAfter k) (h' : c.EndsAfter n) :
    k = n := by
  have htake : c.rest.take k = c.rest.take n :=
    h.2.unique h'.2 ((List.take_append_drop k c.rest).trans (List.take_append_drop n c.rest).symm)
  have hlength := congrArg List.length htake
  have hk : k ≤ c.rest.length := h.1
  have hn : n ≤ c.rest.length := h'.1
  rwa [List.length_take, List.length_take, Nat.min_eq_left hk, Nat.min_eq_left hn] at hlength

lemma goesOnFor_remaining {c : Cursor} (h : Continued c.rest) : c.GoesOnFor c.remaining := by
  refine ⟨Nat.le_refl _, ?_⟩
  rwa [remaining, List.take_length]

end Cursor

section

variable {offset : Nat} {used rest : List UInt8}

lemma endsAfter_length (h : IsGroups used) :
    Cursor.EndsAfter ⟨offset, used ++ rest⟩ used.length := by
  refine ⟨by simp [Cursor.remaining], ?_⟩
  rwa [List.take_left]

lemma goesOnFor_length (h : Continued used) :
    Cursor.GoesOnFor ⟨offset, used ++ rest⟩ used.length := by
  refine ⟨by simp [Cursor.remaining], ?_⟩
  rwa [List.take_left]

lemma advance_length :
    Cursor.advance ⟨offset, used ++ rest⟩ used.length = ⟨offset + used.length, rest⟩ := by
  rw [Cursor.advance, List.drop_left]

/-- Bytes behind which the input is at its end are all that there are. -/
lemma take_eq_of_advance {place k : Nat} (h : ⟨place, []⟩ = Cursor.advance ⟨offset, used⟩ k) :
    used.take k = used := by
  have hrest := congrArg Cursor.rest h
  exact List.take_of_length_le (List.drop_eq_nil_iff.1 hrest.symm)

end

lemma lebBytes_eq (bits : Nat) : lebBytes bits = bits ⌈/⌉ 7 := by
  rw [lebBytes, Nat.ceilDiv_eq_add_pred_div]
  rfl

/-! ### Superfluous groups -/

/-- The bytes of an integer with superfluous groups at their end. -/
def padded (fill : UInt8) (bytes : List UInt8) : (extra : Nat) → List UInt8
  | 0 => bytes
  | extra + 1 => (padded fill bytes extra).map (· ||| 0x80) ++ [fill]

lemma length_padded (fill : UInt8) (bytes : List UInt8) (extra : Nat) :
    (padded fill bytes extra).length = bytes.length + extra := by
  induction extra with
  | zero => rfl
  | succ extra ih => simp [padded, ih, Nat.add_assoc]

/-- A byte with a mark has the same group. -/
lemma toNat_mark (b : UInt8) : (b ||| 0x80).toNat = lebGroup b + 128 := by
  have hb := b.toNat_lt
  have hgroup : lebGroup b < 2 ^ 7 := Nat.mod_lt _ (by decide)
  have hjoin : 2 ^ 7 * 1 + lebGroup b = 2 ^ 7 * 1 ||| lebGroup b :=
    Nat.two_pow_add_eq_or_of_lt hgroup 1
  have hmark : b.toNat = lebGroup b ∨ b.toNat = 2 ^ 7 * 1 + lebGroup b := by
    rw [lebGroup]
    omega
  rw [UInt8.toNat_or, show (0x80 : UInt8).toNat = 2 ^ 7 * 1 from rfl, Nat.or_comm]
  rcases hmark with h | h
  · rw [h, ← hjoin]
    omega
  · rw [h, hjoin, ← Nat.or_assoc, Nat.or_self, ← hjoin]
    omega

lemma lebGroup_mark (b : UInt8) : lebGroup (b ||| 0x80) = lebGroup b := by
  rw [lebGroup, toNat_mark, Nat.add_mod_right]
  exact Nat.mod_eq_of_lt (Word.lebGroup_lt b)

lemma lebContinues_mark (b : UInt8) : lebContinues (b ||| 0x80) = true := by
  rw [lebContinues, toNat_mark]
  simp

lemma groupsValue_map_mark (bytes : List UInt8) :
    groupsValue (bytes.map (· ||| 0x80)) = groupsValue bytes := by
  induction bytes with
  | nil => rfl
  | cons b bytes ih => rw [List.map_cons, groupsValue, groupsValue, lebGroup_mark, ih]

lemma isGroups_append_last {bytes : List UInt8} (hmarked : Continued bytes) {b : UInt8}
    (hb : lebContinues b = false) : IsGroups (bytes ++ [b]) := by
  induction bytes with
  | nil => exact hb
  | cons b' bytes ih =>
    rw [continued_cons] at hmarked
    exact isGroups_cons hmarked.1 (ih hmarked.2)

lemma isGroups_padded {fill : UInt8} (hfill : lebContinues fill = false) {bytes : List UInt8}
    (h : IsGroups bytes) (extra : Nat) : IsGroups (padded fill bytes extra) := by
  cases extra with
  | zero => exact h
  | succ extra =>
    refine isGroups_append_last ?_ hfill
    intro b hb
    obtain ⟨b', -, rfl⟩ := List.mem_map.1 hb
    exact lebContinues_mark b'

lemma groupsValue_padded_succ (fill : UInt8) (bytes : List UInt8) (extra : Nat) :
    groupsValue (padded fill bytes (extra + 1)) =
      groupsValue (padded fill bytes extra) +
        2 ^ (7 * (padded fill bytes extra).length) * lebGroup fill := by
  rw [padded, groupsValue_append, groupsValue_map_mark, List.length_map]
  simp [groupsValue]

/-- Groups of zeros do not change an unsigned number. -/
lemma groupsValue_padded_zero (bytes : List UInt8) (extra : Nat) :
    groupsValue (padded 0x00 bytes extra) = groupsValue bytes := by
  induction extra with
  | zero => rfl
  | succ extra ih =>
    rw [groupsValue_padded_succ, ih, show lebGroup 0x00 = 0 from rfl, Nat.mul_zero, Nat.add_zero]

lemma groupsValue_lt (bytes : List UInt8) : groupsValue bytes < 2 ^ (7 * bytes.length) := by
  induction bytes with
  | nil => decide
  | cons b bytes ih =>
    have hb := Word.lebGroup_lt b
    have hwidth : 2 ^ (7 * (b :: bytes).length) = 128 * 2 ^ (7 * bytes.length) := by
      rw [List.length_cons]
      ring
    rw [groupsValue, hwidth]
    omega

/-- The number that the groups stand for in two's complement. -/
def signedGroups (bytes : List UInt8) : Int :=
  (BitVec.ofNat (7 * bytes.length) (groupsValue bytes)).toInt

lemma signedGroups_eq (bytes : List UInt8) :
    signedGroups bytes = signedValue (7 * bytes.length) (groupsValue bytes) := by
  rw [signedGroups, BitVec.toInt_eq_toNat_cond, BitVec.toNat_ofNat,
    Nat.mod_eq_of_lt (groupsValue_lt bytes), signedValue_eq]
  push_cast
  rfl

/-- The groups that are appended to a signed number. -/
def signFill (v : Int) : UInt8 :=
  if v < 0 then 0x7f else 0x00

/-- One more group with copies of the sign does not change a signed number. -/
lemma signedValue_signFill {width n : Nat} (hn : n < 2 ^ width) {v : Int}
    (h : signedValue width n = v) :
    signedValue (width + 7) (n + 2 ^ width * lebGroup (signFill v)) = v := by
  have hwidth : 2 ^ (width + 7) = 128 * 2 ^ width := by
    rw [Nat.pow_add, Nat.mul_comm]
  have hcast (k : Nat) : (2 : Int) ^ k = (2 ^ k : Nat) := by push_cast; rfl
  rw [signedValue_eq, hcast] at h ⊢
  rw [hwidth, signFill]
  by_cases hsign : v < 0
  · rw [if_pos hsign, show lebGroup 0x7f = 127 from rfl]
    split_ifs at h ⊢ <;> omega
  · rw [if_neg hsign, show lebGroup 0x00 = 0 from rfl]
    split_ifs at h ⊢ <;> omega

lemma signedGroups_padded {bytes : List UInt8} {v : Int} (h : signedGroups bytes = v)
    (extra : Nat) :
    signedGroups (padded (signFill v) bytes extra) = v := by
  induction extra with
  | zero => exact h
  | succ extra ih =>
    rw [signedGroups_eq] at ih ⊢
    have hlength : 7 * (padded (signFill v) bytes (extra + 1)).length =
        7 * (padded (signFill v) bytes extra).length + 7 := by
      rw [length_padded, length_padded]
      omega
    rw [groupsValue_padded_succ, hlength]
    exact signedValue_signFill (groupsValue_lt _) ih

/-! ### The readers are exact -/

section Signed

variable {bits : Nat} (hbits : bits ≤ 64)

include hbits

/-- What the reader of signed integers does, by the marks. -/
lemma signed_cases (c : Cursor) :
    (∃ k ≤ bits ⌈/⌉ 7, c.EndsAfter k ∧
      signed bits c = if fitsSigned bits (signedGroups (c.rest.take k)) then
        .ok (signedGroups (c.rest.take k)) (c.advance k)
      else .error (.lexing c.offset .integerOverflow) (c.advance k)) ∨
    (c.GoesOnFor (bits ⌈/⌉ 7) ∧
      ∃ c', signed bits c = .error (.lexing c.offset .integerOverflow) c') ∨
    (c.remaining < bits ⌈/⌉ 7 ∧ Continued c.rest ∧
      signed bits c =
        .error (.lexing (c.offset + c.remaining) .unexpectedEnd) (c.advance c.remaining)) := by
  obtain ⟨offset, input⟩ := c
  have hstart (c : Cursor) : signed bits c = signedFrom c.offset bits (bits ⌈/⌉ 7) 0 0 c := by
    rw [← lebBytes_eq]
    rfl
  rw [hstart]
  cases marks (bits ⌈/⌉ 7) input with
  | ends used rest hgroups hlength =>
    refine .inl ⟨used.length, hlength, endsAfter_length hgroups, ?_⟩
    rw [signedFrom_groups hbits hgroups hlength, advance_length, List.take_left, Nat.zero_add,
      Nat.zero_add, Nat.pow_zero, Nat.mul_one, signedGroups_eq]
  | overlong used rest hmarked hlength =>
    refine .inr (.inl ⟨hlength ▸ goesOnFor_length hmarked, _, signedFrom_overlong hmarked hlength⟩)
  | cut hmarked hlength =>
    refine .inr (.inr ⟨hlength, hmarked, ?_⟩)
    rw [signedFrom_cut hmarked hlength, Cursor.advance, Cursor.remaining, List.drop_length]

lemma signed_eq_ok_iff {c c' : Cursor} {v : Int} :
    signed bits c = .ok v c' ↔
      ∃ k ≤ bits ⌈/⌉ 7, c.EndsAfter k ∧ c' = c.advance k ∧ v = signedGroups (c.rest.take k) ∧
        -2 ^ (bits - 1) ≤ v ∧ v < 2 ^ (bits - 1) := by
  rcases signed_cases hbits c with
    ⟨k, hk, hends, hrun⟩ | ⟨hgoes, c₁, hrun⟩ | ⟨hshort, hmarked, hrun⟩
  · rw [hrun]
    constructor
    · intro h
      split at h
      case isTrue hfits =>
        cases h
        exact ⟨k, hk, hends, rfl, rfl, fitsSigned_iff.1 hfits⟩
      case isFalse => cases h
    · rintro ⟨n, -, hends', rfl, rfl, hrange⟩
      obtain rfl := hends.unique hends'
      rw [if_pos (fitsSigned_iff.2 hrange)]
  · rw [hrun]
    constructor
    · nofun
    · rintro ⟨n, hn, hends, -⟩
      exact absurd hgoes (hends.not_goesOnFor hn)
  · rw [hrun]
    constructor
    · nofun
    · rintro ⟨n, -, hends, -⟩
      exact absurd (Cursor.goesOnFor_remaining hmarked) (hends.not_goesOnFor hends.1)

lemma signed_overflow_iff {c : Cursor} :
    (∃ c', signed bits c = .error (.lexing c.offset .integerOverflow) c') ↔
      (∃ k ≤ bits ⌈/⌉ 7, c.EndsAfter k ∧
        ¬ (-2 ^ (bits - 1) ≤ signedGroups (c.rest.take k) ∧
          signedGroups (c.rest.take k) < 2 ^ (bits - 1))) ∨
      c.GoesOnFor (bits ⌈/⌉ 7) := by
  simp only [← fitsSigned_iff]
  rcases signed_cases hbits c with
    ⟨k, hk, hends, hrun⟩ | ⟨hgoes, c₁, hrun⟩ | ⟨hshort, hmarked, hrun⟩
  · rw [hrun]
    constructor
    · rintro ⟨c', h⟩
      split at h
      · cases h
      case isFalse hfits => exact .inl ⟨k, hk, hends, hfits⟩
    · rintro (⟨n, -, hends', hfits⟩ | hgoes)
      · obtain rfl := hends.unique hends'
        exact ⟨_, if_neg hfits⟩
      · exact absurd hgoes (hends.not_goesOnFor hk)
  · exact iff_of_true ⟨c₁, hrun⟩ (.inr hgoes)
  · rw [hrun]
    refine iff_of_false (by simp) ?_
    rintro (⟨n, -, hends, -⟩ | hgoes)
    · exact hends.not_goesOnFor hends.1 (Cursor.goesOnFor_remaining hmarked)
    · exact absurd hgoes.1 (Nat.not_le.2 hshort)

lemma signed_of_else {c : Cursor} (hok : ∀ v c', signed bits c ≠ .ok v c')
    (hoverflow : ∀ c', signed bits c ≠ .error (.lexing c.offset .integerOverflow) c') :
    signed bits c =
      .error (.lexing (c.offset + c.remaining) .unexpectedEnd) (c.advance c.remaining) := by
  rcases signed_cases hbits c with ⟨k, -, -, hrun⟩ | ⟨-, c₁, hrun⟩ | ⟨-, -, hrun⟩
  · split at hrun
    · exact absurd hrun (hok _ _)
    · exact absurd hrun (hoverflow _)
  · exact absurd hrun (hoverflow c₁)
  · exact hrun

/-- Copies of the sign may follow a number, as far as the width allows for more bytes. -/
lemma reads_signed_padded (hpos : 0 < bits) {v : Int} (h : fitsSigned bits v = true) {extra : Nat}
    (hlength : (signedBytes v).length + extra ≤ bits ⌈/⌉ 7) :
    Reads (signed bits) (padded (signFill v) (signedBytes v) extra) v := by
  -- what the bytes are can be told from the fact that they are read
  have hread := (signed_eq_ok_iff hbits).1 (reads_signed hbits hpos h 0 [])
  rw [List.append_nil] at hread
  obtain ⟨k, -, hends, hcursor, hvalue, -⟩ := hread
  have hall := take_eq_of_advance hcursor
  have hgroups : IsGroups (signedBytes v) := hall ▸ hends.2
  have hnumber : signedGroups (signedBytes v) = v := by
    rw [hall] at hvalue
    exact hvalue.symm
  have hfill : lebContinues (signFill v) = false := by
    rw [signFill]
    split <;> rfl
  intro offset rest
  refine (signed_eq_ok_iff hbits).2 ⟨_, ?_, endsAfter_length (isGroups_padded hfill hgroups extra),
    advance_length.symm, ?_, fitsSigned_iff.1 h⟩
  · rwa [length_padded]
  · rw [List.take_left, signedGroups_padded hnumber]

end Signed

/-- Which bytes are read as a signed integer of at most `bits` bits.  An integer is accepted if it
ends in time and is in range, and then exactly its bytes are taken.  It is refused if it is out of
range or does not end in time; the fault is at its first byte.  Otherwise the input ends too early.
A number in range is read from the bytes that it is written with, and from those with copies of its
sign behind them.  All this can be done with words of 64 bits. -/
theorem signed_exact {bits : Nat} (hpos : 1 ≤ bits) (hbits : bits ≤ 64) :
    (∀ (c : Cursor) (v : Int) (c' : Cursor), signed bits c = .ok v c' ↔
      ∃ k ≤ bits ⌈/⌉ 7, c.EndsAfter k ∧ c' = c.advance k ∧ v = signedGroups (c.rest.take k) ∧
        -2 ^ (bits - 1) ≤ v ∧ v < 2 ^ (bits - 1)) ∧
    (∀ c : Cursor, (∃ c', signed bits c = .error (.lexing c.offset .integerOverflow) c') ↔
      (∃ k ≤ bits ⌈/⌉ 7, c.EndsAfter k ∧
        ¬ (-2 ^ (bits - 1) ≤ signedGroups (c.rest.take k) ∧
          signedGroups (c.rest.take k) < 2 ^ (bits - 1))) ∨
      c.GoesOnFor (bits ⌈/⌉ 7)) ∧
    (∀ c : Cursor, (∀ v c', signed bits c ≠ .ok v c') →
      (∀ c', signed bits c ≠ .error (.lexing c.offset .integerOverflow) c') →
      signed bits c =
        .error (.lexing (c.offset + c.remaining) .unexpectedEnd) (c.advance c.remaining)) ∧
    (∀ v : Int, -2 ^ (bits - 1) ≤ v → v < 2 ^ (bits - 1) →
      Reads (signed bits) (signedBytes v) v ∧
      ∀ extra, (signedBytes v).length + extra ≤ bits ⌈/⌉ 7 →
        Reads (signed bits) (padded (signFill v) (signedBytes v) extra) v) ∧
    Word.signed bits = (do return some (BitVec.ofInt 64 (← signed bits))) := by
  refine ⟨fun c v c' => signed_eq_ok_iff hbits, fun c => signed_overflow_iff hbits,
    fun c => signed_of_else hbits, fun v hlow hhigh => ?_, Word.signed_eq hpos hbits⟩
  have hfits : fitsSigned bits v = true := fitsSigned_iff.2 ⟨hlow, hhigh⟩
  exact ⟨reads_signed hbits hpos hfits, fun extra => reads_signed_padded hbits hpos hfits⟩

/-- The smallest number of 33 bits has four bits in its fifth byte.  The width allows for nothing
behind it, and with another bit in place of the sign it is out of range. -/
theorem signed_exact_smallest :
    (1 ≤ 33 ∧ 33 ≤ 64) ∧
      signed 33 ⟨7, [0x80, 0x80, 0x80, 0x80, 0x70, 0xff]⟩ = .ok (-4294967296) ⟨12, [0xff]⟩ ∧
      (∃ c', signed 33 ⟨7, [0x80, 0x80, 0x80, 0x80, 0x60]⟩ =
        .error (.lexing 7 .integerOverflow) c') ∧
      signed 33 ⟨7, [0x80, 0x80]⟩ = .error (.lexing 9 .unexpectedEnd) ⟨9, []⟩ ∧
      Reads (signed 33) [0xc0, 0xff, 0xff, 0x7f] (-64) ∧
      Word.signed 33 ⟨0, [0xc0, 0xff, 0x7f]⟩ = .ok (some (-64)) ⟨3, []⟩ := by
  obtain ⟨hok, hoverflow, helse, hwritten, hword⟩ := @signed_exact 33 (by decide) (by decide)
  have hwidth : 33 ⌈/⌉ 7 = 5 := by decide
  rw [hwidth] at hok hoverflow hwritten
  refine ⟨by decide, ?_, ?_, ?_, ?_, ?_⟩
  · exact (hok _ _ _).2 ⟨5, by decide, ⟨by decide, rfl, rfl, rfl, rfl, rfl⟩, rfl, by decide⟩
  · refine (hoverflow ⟨7, _⟩).2 (.inl ⟨5, by decide, ⟨by decide, ?_⟩, by decide⟩)
    exact ⟨rfl, rfl, rfl, rfl, rfl⟩
  · refine helse ⟨7, _⟩ (fun v c' h => ?_) fun c' h => ?_
    · cases h
    · cases h
  · have hbytes : padded (signFill (-64)) (signedBytes (-64)) 3 = [0xc0, 0xff, 0xff, 0x7f] := by
      cbv
    exact hbytes ▸ (hwritten (-64) (by decide) (by decide)).2 3 (by cbv)
  · rw [hword]
    rfl

/-- Among the bytes that the width allows for, the number of the groups up to some byte is beyond
the range, and all bytes before that one are marked. -/
def Cursor.Exceeds (c : Cursor) (bits : Nat) : Prop :=
  ∃ j ≤ bits ⌈/⌉ 7, j ≤ c.remaining ∧ Continued (c.rest.take (j - 1)) ∧
    2 ^ bits ≤ groupsValue (c.rest.take j)

section Unsigned

variable {bits : Nat} (hbits : bits ≤ 64)

include hbits

/-- What the reader of unsigned integers does, by the marks and the groups. -/
lemma unsigned_cases (c : Cursor) :
    (∃ k ≤ bits ⌈/⌉ 7, c.EndsAfter k ∧ groupsValue (c.rest.take k) < 2 ^ bits ∧
      unsigned bits c = .ok (groupsValue (c.rest.take k)) (c.advance k)) ∨
    ((c.Exceeds bits ∨ c.GoesOnFor (bits ⌈/⌉ 7)) ∧
      ∃ c', unsigned bits c = .error (.lexing c.offset .integerOverflow) c') ∨
    (c.remaining < bits ⌈/⌉ 7 ∧ Continued c.rest ∧ groupsValue c.rest < 2 ^ bits ∧
      unsigned bits c =
        .error (.lexing (c.offset + c.remaining) .unexpectedEnd) (c.advance c.remaining)) := by
  obtain ⟨offset, input⟩ := c
  have hstart (c : Cursor) : unsigned bits c = unsignedFrom c.offset bits (bits ⌈/⌉ 7) 0 0 c := by
    rw [← lebBytes_eq]
    rfl
  have hzero : 0 < 2 ^ bits := Nat.two_pow_pos bits
  have hvalue (bytes : List UInt8) : 0 + groupsValue bytes * 2 ^ 0 = groupsValue bytes := by simp
  rw [hstart]
  cases marks (bits ⌈/⌉ 7) input with
  | ends used rest hgroups hlength =>
    by_cases hfits : groupsValue used < 2 ^ bits
    · have hword : 2 ^ bits ≤ 2 ^ wordBits := Nat.pow_le_pow_right (by decide) hbits
      have hrun := @reads_unsignedFrom_groups offset bits (bits ⌈/⌉ 7) 0 0 used hgroups hlength
        (by rwa [hvalue])
      refine .inl ⟨used.length, hlength, endsAfter_length hgroups, ?_⟩
      rw [hvalue, Nat.mod_eq_of_lt (by omega)] at hrun
      rw [List.take_left, advance_length]
      exact ⟨hfits, hrun offset rest⟩
    · have hmarked := hgroups.dropLast
      refine .inr (.inl ⟨.inl ⟨used.length, hlength, by simp [Cursor.remaining], ?_, ?_⟩, ?_⟩)
      · rwa [List.take_append_of_le_length (Nat.sub_le _ _), ← List.dropLast_eq_take]
      · rw [List.take_left]
        omega
      · exact unsignedFrom_exceeds hzero hmarked hlength (by rw [hvalue]; omega)
  | overlong used rest hmarked hlength =>
    exact .inr (.inl ⟨.inr (hlength ▸ goesOnFor_length hmarked),
      unsignedFrom_overlong hmarked hlength⟩)
  | cut hmarked hlength =>
    by_cases hfits : groupsValue input < 2 ^ bits
    · refine .inr (.inr ⟨hlength, hmarked, hfits, ?_⟩)
      rw [unsignedFrom_cut hmarked hlength (by rwa [hvalue]), Cursor.advance, Cursor.remaining,
        List.drop_length]
    -- what there is of the number is too large already, so the missing end is not noticed
    · refine .inr (.inl ⟨.inl ⟨input.length, Nat.le_of_lt hlength, Nat.le_refl _, ?_, ?_⟩, ?_⟩)
      · exact fun b hb => hmarked b (List.mem_of_mem_take hb)
      · rw [List.take_length]
        omega
      · have hrun := @unsignedFrom_exceeds offset bits (bits ⌈/⌉ 7) 0 0 offset input [] hzero
          (fun b hb => hmarked b (List.mem_of_mem_dropLast hb)) (Nat.le_of_lt hlength)
          (by rw [hvalue]; omega)
        rwa [List.append_nil] at hrun

omit hbits in
/-- An integer that is in range does not exceed the width at any of its groups. -/
lemma Cursor.EndsAfter.not_exceeds {c : Cursor} {k : Nat} (h : c.EndsAfter k)
    (hfits : groupsValue (c.rest.take k) < 2 ^ bits) : ¬ c.Exceeds bits := by
  rintro ⟨j, -, hj, hmarked, hlarge⟩
  by_cases hle : j ≤ k
  · have hpart := groupsValue_take_le j (c.rest.take k)
    rw [List.take_take, Nat.min_eq_left hle] at hpart
    omega
  · exact h.not_goesOnFor (show k ≤ j - 1 by omega) ⟨by omega, hmarked⟩

lemma unsigned_eq_ok_iff {c c' : Cursor} {v : Nat} :
    unsigned bits c = .ok v c' ↔
      ∃ k ≤ bits ⌈/⌉ 7, c.EndsAfter k ∧ c' = c.advance k ∧ v = groupsValue (c.rest.take k) ∧
        v < 2 ^ bits := by
  rcases unsigned_cases hbits c with
    ⟨k, hk, hends, hfits, hrun⟩ | ⟨hcause, c₁, hrun⟩ | ⟨hshort, hmarked, -, hrun⟩
  · rw [hrun]
    constructor
    · intro h
      cases h
      exact ⟨k, hk, hends, rfl, rfl, hfits⟩
    · rintro ⟨n, -, hends', rfl, rfl, -⟩
      obtain rfl := hends.unique hends'
      rfl
  · rw [hrun]
    refine iff_of_false nofun ?_
    rintro ⟨n, hn, hends, -, rfl, hfits⟩
    exact hcause.elim (hends.not_exceeds hfits) (hends.not_goesOnFor hn)
  · rw [hrun]
    refine iff_of_false nofun ?_
    rintro ⟨n, -, hends, -⟩
    exact hends.not_goesOnFor hends.1 (Cursor.goesOnFor_remaining hmarked)

lemma unsigned_overflow_iff {c : Cursor} :
    (∃ c', unsigned bits c = .error (.lexing c.offset .integerOverflow) c') ↔
      c.Exceeds bits ∨ c.GoesOnFor (bits ⌈/⌉ 7) := by
  rcases unsigned_cases hbits c with
    ⟨k, hk, hends, hfits, hrun⟩ | ⟨hcause, c₁, hrun⟩ | ⟨hshort, hmarked, hfits, hrun⟩
  · rw [hrun]
    refine iff_of_false (by simp) ?_
    rintro (hexceeds | hgoes)
    · exact hends.not_exceeds hfits hexceeds
    · exact hends.not_goesOnFor hk hgoes
  · exact iff_of_true ⟨c₁, hrun⟩ hcause
  · rw [hrun]
    refine iff_of_false (by simp) ?_
    rintro (⟨j, -, -, -, hlarge⟩ | hgoes)
    · have hpart := groupsValue_take_le j c.rest
      omega
    · exact absurd hgoes.1 (Nat.not_le.2 hshort)

lemma unsigned_of_else {c : Cursor} (hok : ∀ v c', unsigned bits c ≠ .ok v c')
    (hoverflow : ∀ c', unsigned bits c ≠ .error (.lexing c.offset .integerOverflow) c') :
    unsigned bits c =
      .error (.lexing (c.offset + c.remaining) .unexpectedEnd) (c.advance c.remaining) := by
  rcases unsigned_cases hbits c with ⟨k, -, -, -, hrun⟩ | ⟨-, c₁, hrun⟩ | ⟨-, -, -, hrun⟩
  · exact absurd hrun (hok _ _)
  · exact absurd hrun (hoverflow c₁)
  · exact hrun

/-- Zeros may follow a number, as far as the width allows for more bytes. -/
lemma reads_unsigned_padded (hpos : 0 < bits) {n : Nat} (h : n < 2 ^ bits) {extra : Nat}
    (hlength : (unsignedBytes n).length + extra ≤ bits ⌈/⌉ 7) :
    Reads (unsigned bits) (padded 0x00 (unsignedBytes n) extra) n := by
  have hread := (unsigned_eq_ok_iff hbits).1 (reads_unsigned hbits hpos h 0 [])
  rw [List.append_nil] at hread
  obtain ⟨k, -, hends, hcursor, hvalue, -⟩ := hread
  have hall := take_eq_of_advance hcursor
  have hgroups : IsGroups (unsignedBytes n) := hall ▸ hends.2
  rw [hall] at hvalue
  intro offset rest
  refine (unsigned_eq_ok_iff hbits).2 ⟨_, ?_, endsAfter_length (isGroups_padded rfl hgroups extra),
    advance_length.symm, ?_, h⟩
  · rwa [length_padded]
  · rw [List.take_left, groupsValue_padded_zero]
    exact hvalue

end Unsigned

/-- Which bytes are read as an unsigned integer of at most `bits` bits.  An integer is accepted if
it ends in time and is in range, and then exactly its bytes are taken.  It is refused as soon as the
groups that were read are beyond the range, or if it does not end in time; the fault is at its first
byte.  Otherwise the input ends too early.  All this can be done with words of 64 bits: no shift in
the loop is as long as a word, and no difference is negative.  A number in range is read from the
bytes that it is written with, and from those with zeros behind them. -/
theorem unsigned_exact {bits : Nat} (hpos : 1 ≤ bits) (hbits : bits ≤ 64) :
    (∀ (c : Cursor) (v : Nat) (c' : Cursor), unsigned bits c = .ok v c' ↔
      ∃ k ≤ bits ⌈/⌉ 7, c.EndsAfter k ∧ c' = c.advance k ∧ v = groupsValue (c.rest.take k) ∧
        v < 2 ^ bits) ∧
    (∀ c : Cursor, (∃ c', unsigned bits c = .error (.lexing c.offset .integerOverflow) c') ↔
      c.Exceeds bits ∨ c.GoesOnFor (bits ⌈/⌉ 7)) ∧
    (∀ c : Cursor, (∀ v c', unsigned bits c ≠ .ok v c') →
      (∀ c', unsigned bits c ≠ .error (.lexing c.offset .integerOverflow) c') →
      unsigned bits c =
        .error (.lexing (c.offset + c.remaining) .unexpectedEnd) (c.advance c.remaining)) ∧
    Word.unsigned bits = (do return some (BitVec.ofNat 64 (← unsigned bits))) ∧
    (∀ n < 2 ^ bits, Reads (unsigned bits) (unsignedBytes n) n ∧
      ∀ extra, (unsignedBytes n).length + extra ≤ bits ⌈/⌉ 7 →
        Reads (unsigned bits) (padded 0x00 (unsignedBytes n) extra) n) :=
  ⟨fun _ _ _ => unsigned_eq_ok_iff hbits, fun _ => unsigned_overflow_iff hbits,
    fun _ => unsigned_of_else hbits, Word.unsigned_eq hbits, fun _ hn =>
      ⟨reads_unsigned hbits hpos hn, fun _ => reads_unsigned_padded hbits hpos hn⟩⟩

/-- Of 64 bits, the tenth byte may hold one more bit.  Two bits are refused there even if another
byte is announced, while nine marked bytes are an unexpected end. -/
theorem unsigned_exact_largest :
    (1 ≤ 64 ∧ 64 ≤ 64) ∧
      unsigned 64 ⟨3, List.replicate 9 0xff ++ [0x01, 0x05]⟩ =
        .ok 18446744073709551615 ⟨13, [0x05]⟩ ∧
      (∃ c', unsigned 64 ⟨3, List.replicate 9 0xff ++ [0x82]⟩ =
        .error (.lexing 3 .integerOverflow) c') ∧
      unsigned 64 ⟨3, List.replicate 9 0xff⟩ = .error (.lexing 12 .unexpectedEnd) ⟨12, []⟩ ∧
      Word.unsigned 64 ⟨3, List.replicate 9 0xff ++ [0x01]⟩ = .ok (some (-1)) ⟨13, []⟩ ∧
      Reads (unsigned 64) [0xac, 0x82, 0x80, 0x00] 300 := by
  obtain ⟨hok, hoverflow, helse, hword, hwritten⟩ := @unsigned_exact 64 (by decide) (by decide)
  have hwidth : 64 ⌈/⌉ 7 = 10 := by decide
  rw [hwidth] at hok hwritten
  refine ⟨by decide, ?_, ?_, ?_, ?_, ?_⟩
  · refine (hok _ _ _).2 ⟨10, by decide, ⟨by decide, ?_⟩, rfl, by decide⟩
    exact ⟨rfl, rfl, rfl, rfl, rfl, rfl, rfl, rfl, rfl, rfl⟩
  · refine (hoverflow ⟨3, _⟩).2 (.inl ⟨10, by decide, by decide, ?_, by decide⟩)
    intro b hb
    obtain rfl : b = 0xff := List.eq_of_mem_replicate (n := 9) hb
    rfl
  · refine helse ⟨3, _⟩ (fun v c' h => ?_) fun c' h => ?_
    · cases h
    · cases h
  · rw [hword]
    rfl
  · have hbytes : padded 0x00 (unsignedBytes 300) 2 = [0xac, 0x82, 0x80, 0x00] := by cbv
    exact hbytes ▸ (hwritten 300 (by decide)).2 2 (by cbv)

end WasmAot.Binary
