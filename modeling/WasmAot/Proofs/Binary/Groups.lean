/-
# Integers as groups of seven bits

Which bytes spell an unsigned integer, without reference to a reader: all bytes but the last are
marked, and the number is put together from the seven low bits of each, lowest first.  The same
number has several spellings, since groups of zeros may stand at the end as long as the width of the
integer allows for them.  The reader accepts exactly the spellings.
-/
import WasmAot.Proofs.Binary.Locality

namespace WasmAot.Binary

open Stateful

/-- The bytes are marked as those of one integer: all but the last one announce another byte. -/
def IsGroups : List UInt8 → Prop
  | [] => False
  | [b] => lebContinues b = false
  | b :: bytes => lebContinues b = true ∧ IsGroups bytes

/-- The number that is put together from groups of seven bits, lowest first. -/
def groupsValue : List UInt8 → Nat
  | [] => 0
  | b :: bytes => lebGroup b + 128 * groupsValue bytes

/-- The bytes spell an unsigned integer of at most `bits` bits. -/
structure Spells (bits : Nat) (bytes : List UInt8) (n : Nat) : Prop where
  marked : IsGroups bytes
  length : bytes.length ≤ lebBytes bits
  value : groupsValue bytes = n
  fits : n < 2 ^ bits

lemma isGroups_cons {b : UInt8} {bytes : List UInt8} (hb : lebContinues b = true)
    (h : IsGroups bytes) : IsGroups (b :: bytes) := by
  cases bytes with
  | nil => exact absurd h id
  | cons => exact ⟨hb, h⟩

/-- The value with one more group in front, above bits that are known. -/
lemma groupsValue_cons (b : UInt8) (bytes : List UInt8) (shift : Nat) :
    groupsValue (b :: bytes) * 2 ^ shift =
      lebGroup b * 2 ^ shift + groupsValue bytes * 2 ^ (shift + 7) := by
  rw [groupsValue, Nat.add_mul, Nat.pow_add]
  ring

/-- What is read are groups, and the number is known from them. -/
lemma groups_of_unsignedFrom {start bits room shift value offset n : Nat} {input : List UInt8}
    {c : Cursor} (hrun : unsignedFrom start bits room shift value ⟨offset, input⟩ = .ok n c) :
    ∃ used rest, input = used ++ rest ∧ c = ⟨offset + used.length, rest⟩ ∧ IsGroups used ∧
      used.length ≤ room ∧ value + groupsValue used * 2 ^ shift < 2 ^ bits ∧
      n = (value + groupsValue used * 2 ^ shift) % 2 ^ wordBits := by
  induction room generalizing shift value offset input with
  | zero => cases hrun
  | succ room ih =>
    cases input with
    | nil => cases hrun
    | cons b input =>
      rw [unsignedFrom_succ, bind_run_ok (byte_run ..)] at hrun
      split at hrun
      · cases hrun
      case isFalse hfits =>
        split at hrun
        case isTrue hcontinues =>
          obtain ⟨used, rest, rfl, rfl, hgroups, hlength, hbound, rfl⟩ := ih hrun
          rw [Nat.add_assoc, ← groupsValue_cons] at hbound
          refine ⟨b :: used, rest, rfl, ?_, isGroups_cons hcontinues hgroups,
            by simpa using hlength, hbound, ?_⟩
          · rw [List.length_cons, Nat.add_assoc, Nat.add_comm 1]
          · rw [groupsValue_cons, Nat.add_assoc]
        case isFalse hlast =>
          cases hrun
          refine ⟨[b], input, rfl, rfl, Bool.eq_false_of_not_eq_true hlast, by simp, ?_, ?_⟩
          · simpa [groupsValue] using hfits
          · simp [groupsValue]

/-- Groups of a number that fits are read as this number. -/
lemma reads_unsignedFrom_groups {start bits room shift value : Nat} {bytes : List UInt8}
    (hgroups : IsGroups bytes) (hlength : bytes.length ≤ room)
    (hfits : value + groupsValue bytes * 2 ^ shift < 2 ^ bits) :
    Reads (unsignedFrom start bits room shift value) bytes
      ((value + groupsValue bytes * 2 ^ shift) % 2 ^ wordBits) := by
  induction bytes generalizing room shift value with
  | nil => exact absurd hgroups id
  | cons b bytes ih =>
    obtain ⟨room, rfl⟩ : ∃ n, room = n + 1 := Nat.exists_eq_add_one.2 (by simp at hlength; omega)
    rw [groupsValue_cons] at hfits ⊢
    rw [← Nat.add_assoc] at hfits ⊢
    rw [unsignedFrom_succ]
    refine Reads.byte_bind ?_
    dsimp only
    -- the groups so far are no more than all of them
    rw [if_neg (by omega)]
    cases bytes with
    | nil =>
      have hlast : lebContinues b = false := hgroups
      rw [hlast, if_neg Bool.false_ne_true, groupsValue, Nat.zero_mul, Nat.add_zero]
      exact Reads.pure _
    | cons b' bytes =>
      rw [hgroups.1, if_pos rfl]
      exact ih hgroups.2 (by simpa using hlength) hfits

/-- An index, count or size is read from its spellings, and from nothing else. -/
lemma reads_u32_iff {bytes : List UInt8} {n : Nat} : Reads u32 bytes n ↔ Spells 32 bytes n := by
  have hvalue : 0 + groupsValue bytes * 2 ^ 0 = groupsValue bytes := by simp
  constructor
  · intro h
    have hrun := h 0 []
    rw [List.append_nil] at hrun
    obtain ⟨used, rest, rfl, hcursor, hgroups, hlength, hfits, hn⟩ := groups_of_unsignedFrom hrun
    simp only [Cursor.mk.injEq] at hcursor
    obtain ⟨-, rfl⟩ := hcursor
    rw [List.append_nil] at hvalue ⊢
    rw [hvalue] at hfits hn
    have hword : (2 : Nat) ^ 32 ≤ 2 ^ wordBits := by decide
    have hsame : groupsValue used = n := by rw [hn, Nat.mod_eq_of_lt (by omega)]
    exact ⟨hgroups, hlength, hsame, hsame ▸ hfits⟩
  · intro h
    have hword : (2 : Nat) ^ 32 ≤ 2 ^ wordBits := by decide
    have hfits := h.fits
    rw [← h.value] at hfits ⊢
    refine Reads.position_bind fun start => ?_
    have hread := @reads_unsignedFrom_groups start 32 (lebBytes 32) 0 0 bytes h.marked h.length
      (hvalue.symm ▸ hfits)
    rwa [hvalue, Nat.mod_eq_of_lt (by omega)] at hread

end WasmAot.Binary
