/-
# Ranges of tables

Five operations change a range of slots: one value for all of them, a segment as a whole or in part,
a range of another table, a range of the same table.  Each checks its ranges before it writes, so it
does all that it was asked for or nothing (`AllOrNothing`), and what it copies is what was there
before the call.
-/
import WasmAot.Host.Table
import WasmAot.Proofs.Host.Ranges
import WasmAot.Proofs.Stateful

namespace WasmAot.Host.Table

open Stateful

/-! ### Calls -/

/-- The calls that change a range of slots. -/
inductive Call where
  | fill (n : Nat) (value : Option Address) (offset : Nat)
  | place (values : Array (Option Address)) (offset : Nat)
  | init (segment : Array (Option Address)) (src dst n : Nat)
  /-- a copy from a table to this one -/
  | copyFrom (source : Table) (src dst n : Nat)
  | move (src dst n : Nat)

namespace Call

/-- Makes a call. -/
def perform : Call → EStateM Trap Table Unit
  | fill n value offset => Table.fill n value offset
  | place values offset => Table.place values offset
  | init segment src dst n => Table.init segment src dst n
  | copyFrom source src dst n => Table.copyFrom source src dst n
  | move src dst n => Table.move src dst n

/-- The slot that a call writes first. -/
def start : Call → Nat
  | fill _ _ offset | place _ offset => offset
  | init _ _ dst _ | copyFrom _ _ dst _ | move _ dst _ => dst

/-- How many slots a call writes. -/
def count : Call → Nat
  | place values _ => values.size
  | fill n _ _ | init _ _ _ n | copyFrom _ _ _ n | move _ _ n => n

/-- The range that a call reads is there. -/
def Readable (t : Table) : Call → Prop
  | fill .. | place .. => True
  | init segment src _ n => src + n ≤ segment.size
  | copyFrom source src _ n => src + n ≤ source.size
  | move src _ n => src + n ≤ t.size

/-- What a call writes to its slots, from the first one on. -/
def entry (t : Table) : Call → Nat → Option (Option Address)
  | fill _ value _ => fun _ => some value
  | place values _ => fun i => values[i]?
  | init segment src _ _ => fun i => segment[src + i]?
  | copyFrom source src _ _ => fun i => source.slots[src + i]?
  | move src _ _ => fun i => t.slots[src + i]?

/-- All ranges of a call are there. -/
def Fits (t : Table) (call : Call) : Prop :=
  call.Readable t ∧ call.start + call.count ≤ t.size

end Call

/-! ### What a call does -/

variable {t : Table}

lemma copyFrom_run (t source : Table) (src dst n : Nat) :
    copyFrom source src dst n t =
      if src + n ≤ source.size ∧ dst + n ≤ t.size then
        .ok () { t with slots := splice t.slots dst (slice source.slots src n) }
      else .error .tableOutOfBounds t := by
  rw [copyFrom, checkRange_run, bind_run_ok (get_run t), checkRange_run, ite_and]
  rfl

lemma move_run (t : Table) (src dst n : Nat) :
    move src dst n t =
      if src + n ≤ t.size ∧ dst + n ≤ t.size then
        .ok () { t with slots := splice t.slots dst (slice t.slots src n) }
      else .error .tableOutOfBounds t := by
  rw [move, bind_run_ok (get_run t), checkRange_run, bind_run_ok (get_run t), checkRange_run, ite_and]
  rfl

/-- A call writes new slots in a range, or is refused and leaves the table, unless its ranges are
there. -/
def Acts (t : Table) (call : Call) : Prop :=
  (call.Fits t ∧ ∃ slots, call.perform t = .ok () { t with slots } ∧
      Replaces t.slots slots call.start call.count (call.entry t)) ∨
    (¬ call.Fits t ∧ call.perform t = .error .tableOutOfBounds t)

lemma acts_of_run {call : Call} {allowed : Prop} [Decidable allowed] {slots : Array (Option Address)}
    (hrun : call.perform t =
      if allowed then .ok () { t with slots } else .error .tableOutOfBounds t)
    (hallowed : allowed ↔ call.Fits t)
    (hslots : call.Fits t → Replaces t.slots slots call.start call.count (call.entry t)) :
    Acts t call := by
  by_cases h : allowed
  · exact .inl ⟨hallowed.1 h, slots, hrun.trans (if_pos h), hslots (hallowed.1 h)⟩
  · exact .inr ⟨mt hallowed.2 h, hrun.trans (if_neg h)⟩

lemma acts (t : Table) (call : Call) : Acts t call := by
  cases call with
  | fill n value offset =>
    have hrun : fill n value offset t =
        if offset + n ≤ t.size then
          .ok () { t with slots := splice t.slots offset (Array.replicate n value) }
        else .error .tableOutOfBounds t := by
      rw [fill, bind_run_ok (get_run t), checkRange_run]
      rfl
    refine acts_of_run hrun (and_iff_right trivial).symm fun h => ?_
    have hsize : (Array.replicate n value).size = n := Array.size_replicate
    have hreplaces : Replaces t.slots (splice t.slots offset (Array.replicate n value)) offset
        (Array.replicate n value).size fun i => (Array.replicate n value)[i]? :=
      replaces_splice (hsize.symm ▸ h.2)
    rw [hsize] at hreplaces
    refine hreplaces.congr fun i hi => ?_
    rw [Array.getElem?_replicate, if_pos hi]
    rfl
  | place values offset =>
    have hrun : place values offset t =
        if offset + values.size ≤ t.size then
          .ok () { t with slots := splice t.slots offset values }
        else .error .tableOutOfBounds t := by
      rw [place, bind_run_ok (get_run t), checkRange_run]
      rfl
    exact acts_of_run hrun (and_iff_right trivial).symm fun h => replaces_splice h.2
  | init segment src dst n =>
    have hrun : init segment src dst n t =
        if src + n ≤ segment.size ∧ dst + n ≤ t.size then
          .ok () { t with slots := splice t.slots dst (slice segment src n) }
        else .error .tableOutOfBounds t := by
      rw [init, checkRange_run, bind_run_ok (get_run t), checkRange_run, ite_and]
      rfl
    exact acts_of_run hrun Iff.rfl fun h => replaces_copied h.1 h.2
  | copyFrom source src dst n =>
    exact acts_of_run (copyFrom_run t source src dst n) Iff.rfl fun h => replaces_copied h.1 h.2
  | move src dst n =>
    exact acts_of_run (move_run t src dst n) Iff.rfl fun h => replaces_copied h.1 h.2

/-- A call does all that it was asked for or changes nothing. -/
structure AllOrNothing (t : Table) (call : Call) : Prop where
  traps_iff : (∃ trap t', call.perform t = .error trap t') ↔ ¬ call.Fits t
  trapped : ∀ trap t', call.perform t = .error trap t' → trap = .tableOutOfBounds ∧ t' = t
  /-- the new slots hold what the call writes as it was before, and no other slot changes -/
  done : ∀ t', call.perform t = .ok () t' →
    t'.max = t.max ∧ Replaces t.slots t'.slots call.start call.count (call.entry t)

lemma allOrNothing (t : Table) (call : Call) : AllOrNothing t call := by
  obtain ⟨hfits, slots, hrun, hreplaces⟩ | ⟨hrefused, hrun⟩ := acts t call
  · refine ⟨iff_of_false ?_ (not_not_intro hfits), fun trap t' htrap => ?_, fun t' hdone => ?_⟩
    · rintro ⟨trap, t', htrap⟩
      rw [hrun] at htrap
      cases htrap
    · rw [hrun] at htrap
      cases htrap
    · rw [hrun] at hdone
      cases hdone
      exact ⟨rfl, hreplaces⟩
  · refine ⟨iff_of_true ⟨_, _, hrun⟩ hrefused, fun trap t' htrap => ?_, fun t' hdone => ?_⟩
    · rw [hrun] at htrap
      cases htrap
      exact ⟨rfl, rfl⟩
    · rw [hrun] at hdone
      cases hdone

/-- A copy inside of a table is a copy from a snapshot of it. -/
lemma perform_move (t : Table) (src dst n : Nat) :
    (Call.move src dst n).perform t = (Call.copyFrom t src dst n).perform t :=
  (move_run t src dst n).trans (copyFrom_run t t src dst n).symm

end WasmAot.Host.Table
