/-
# Entries of a range

Memories and tables change a range at a time, after a check of each range that they use.  This file
says what a check does to a program that goes on behind it, and what an array holds after the change,
entry by entry: inside of the range the new entries, outside of it what was there before.
-/
import Mathlib.Logic.Basic
import WasmAot.Host.Span
import WasmAot.Proofs.Stateful

namespace WasmAot.Host

variable {α : Type} {xs ys entries : Array α} {offset len : Nat}

/-! ### Checks -/

lemma fits_iff : fits xs offset len = true ↔ offset + len ≤ xs.size :=
  decide_eq_true_iff

lemma checkRange_eq (t : Trap) :
    checkRange t xs offset len = if offset + len ≤ xs.size then .ok () else .error t := by
  simp only [checkRange, fits_iff]

/-- The program goes on behind the check, or the state stays. -/
lemma checkRange_run {σ β : Type} (t : Trap) (next : EStateM Trap σ β) (s : σ) :
    (do orTrap (checkRange t xs offset len); next) s =
      if offset + len ≤ xs.size then next s else .error t s := by
  rw [checkRange_eq]
  split <;> rfl

/-! ### Entries -/

/-- Replacing a range that fits changes the size of nothing. -/
lemma size_splice (h : offset + entries.size ≤ xs.size) :
    (splice xs offset entries).size = xs.size := by
  simp only [splice, Array.size_append, Array.size_extract]
  omega

lemma size_slice (h : offset + len ≤ xs.size) : (slice xs offset len).size = len := by
  simp only [slice, Array.size_extract]
  omega

lemma getElem?_slice (h : offset + len ≤ xs.size) {i : Nat} (hi : i < len) :
    (slice xs offset len)[i]? = xs[offset + i]? := by
  rw [slice, Array.getElem?_extract, if_pos (by omega)]

lemma getElem?_splice (h : offset + entries.size ≤ xs.size) (k : Nat) :
    (splice xs offset entries)[k]? =
      if offset ≤ k ∧ k < offset + entries.size then entries[k - offset]? else xs[k]? := by
  have hfront : (xs.extract 0 offset).size = offset := by
    rw [Array.size_extract]
    omega
  rw [splice, Array.append_assoc]
  by_cases hbefore : k < offset
  · rw [if_neg (by omega), Array.getElem?_append_left (by omega), Array.getElem?_extract,
      if_pos (by omega), Nat.zero_add]
  · rw [Array.getElem?_append_right (by omega), hfront]
    by_cases hinside : k - offset < entries.size
    · rw [if_pos (by omega), Array.getElem?_append_left hinside]
    · rw [if_neg (by omega), Array.getElem?_append_right (by omega), Array.getElem?_extract]
      have hk : offset + entries.size + (k - offset - entries.size) = k := by omega
      split
      · rw [hk]
      · exact (Array.getElem?_eq_none (by omega)).symm

/-- The second array is the first one with other entries in a range. -/
structure Replaces (xs ys : Array α) (offset len : Nat) (entry : Nat → Option α) : Prop where
  size_eq : ys.size = xs.size
  inside : ∀ i < len, ys[offset + i]? = entry i
  outside : ∀ k, k < offset ∨ offset + len ≤ k → ys[k]? = xs[k]?

lemma replaces_splice (h : offset + entries.size ≤ xs.size) :
    Replaces xs (splice xs offset entries) offset entries.size fun i => entries[i]? where
  size_eq := size_splice h
  inside i hi := by
    rw [getElem?_splice h, if_pos (by omega), Nat.add_sub_cancel_left]
  outside k hk := by
    rw [getElem?_splice h, if_neg (by omega)]

namespace Replaces

variable {entry entry' : Nat → Option α}

lemma congr (h : Replaces xs ys offset len entry) (heq : ∀ i < len, entry i = entry' i) :
    Replaces xs ys offset len entry' :=
  ⟨h.size_eq, fun i hi => (h.inside i hi).trans (heq i hi), h.outside⟩

/-- Nothing but the new entries is left open. -/
lemma unique {zs : Array α} (h : Replaces xs ys offset len entry)
    (h' : Replaces xs zs offset len entry) : ys = zs := by
  refine Array.ext_getElem? fun k => ?_
  by_cases hk : k < offset ∨ offset + len ≤ k
  · rw [h.outside k hk, h'.outside k hk]
  · have hin := (h.inside (k - offset) (by omega)).trans (h'.inside (k - offset) (by omega)).symm
    rwa [Nat.add_sub_cancel' (by omega)] at hin

end Replaces

/-- A copied range holds what was in the other range, also where the two overlap. -/
lemma replaces_copied {zs : Array α} {src : Nat} (hsrc : src + len ≤ zs.size)
    (hdst : offset + len ≤ xs.size) :
    Replaces xs (splice xs offset (slice zs src len)) offset len fun i => zs[src + i]? := by
  have hsize : (slice zs src len).size = len := size_slice hsrc
  have hreplaces : Replaces xs (splice xs offset (slice zs src len)) offset (slice zs src len).size
      fun i => (slice zs src len)[i]? := replaces_splice (by rwa [hsize])
  rw [hsize] at hreplaces
  exact hreplaces.congr fun i hi => getElem?_slice hsrc hi

end WasmAot.Host
