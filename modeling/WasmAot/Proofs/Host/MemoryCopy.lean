/-
# Copies inside of a memory

A copy inside of a memory moves the bytes as they were before the call, however the two ranges
overlap.  So it is the same as reading the one range and then writing what was read to the other,
and the same as taking the bytes from a segment that is a snapshot of the memory.
-/
import WasmAot.Proofs.Host.Memory

namespace WasmAot.Host.Memory

open Stateful

variable {m : Memory} {src dst len : Nat}

/-! ### Calls that take bytes from elsewhere -/

lemma perform_init (segment : Array UInt8)
    (h : src + len ≤ segment.size ∧ dst + len ≤ m.bytes.size) :
    (Call.init segment src dst len).perform m =
      .ok none (m.spliced dst (slice segment src len)) :=
  bind_run_ok ((init_run m segment src dst len).trans (if_pos h))

lemma perform_init_trapped (segment : Array UInt8)
    (h : ¬ (src + len ≤ segment.size ∧ dst + len ≤ m.bytes.size)) :
    (Call.init segment src dst len).perform m = .error .outOfBounds m :=
  bind_run_error ((init_run m segment src dst len).trans (if_neg h))

/-- A copy reads its bytes from the memory as from a segment. -/
lemma perform_copy_eq_init (m : Memory) (src dst len : Nat) :
    (Call.copy src dst len).perform m = (Call.init m.bytes src dst len).perform m := by
  have hsame : copy src dst len m = init m.bytes src dst len m := by rw [copy_run, init_run]
  rw [Call.perform, Call.perform, bind_run, bind_run, hsame]

lemma perform_write {data : Array UInt8} (h : dst + data.size ≤ m.bytes.size) :
    (Call.write data dst).perform m = .ok none (m.spliced dst data) :=
  bind_run_ok ((write_run m data dst).trans (if_pos h))

lemma perform_write_trapped {data : Array UInt8} (h : ¬ dst + data.size ≤ m.bytes.size) :
    (Call.write data dst).perform m = .error .outOfBounds m :=
  bind_run_error ((write_run m data dst).trans (if_neg h))

/-! ### Reading and writing -/

/-- Reads one range and writes what was read to the other. -/
def readThenWrite (src dst len : Nat) : EStateM Trap Memory (Option Int) := do
  let data ← orTrap ((← get).read src len)
  (Call.write data dst).perform

lemma perform_copy_eq_readThenWrite (m : Memory) (src dst len : Nat) :
    (Call.copy src dst len).perform m = readThenWrite src dst len m := by
  rw [perform_copy_eq_init, readThenWrite, bind_run_ok (get_run m), read_eq]
  by_cases hsrc : src + len ≤ m.bytes.size
  · rw [if_pos hsrc, orTrap, bind_run_ok (pure_run m _)]
    have hsize : (slice m.bytes src len).size = len := size_slice hsrc
    by_cases hdst : dst + len ≤ m.bytes.size
    · rw [perform_init m.bytes ⟨hsrc, hdst⟩, perform_write (by rwa [hsize])]
    · rw [perform_init_trapped m.bytes fun h => hdst h.2, perform_write_trapped (by rwa [hsize])]
  · rw [if_neg hsrc, orTrap, bind_run_error (throw_run m _),
      perform_init_trapped m.bytes fun h => hsrc h.1]

/-! ### Overlap -/

/-- A call copies the bytes of one range to another as if there were a copy of all of them in
between. -/
structure Moves (m : Memory) (src dst len : Nat) : Prop where
  traps_iff : (∃ t m', (Call.copy src dst len).perform m = .error t m') ↔
    m.bytes.size < src + len ∨ m.bytes.size < dst + len
  trapped : ∀ t m', (Call.copy src dst len).perform m = .error t m' → t = .outOfBounds ∧ m' = m
  /-- byte `dst + i` is the byte that was at `src + i`, and no other byte changes -/
  moved : ∀ answer m', (Call.copy src dst len).perform m = .ok answer m' →
    m'.maxPages = m.maxPages ∧ Replaces m.bytes m'.bytes dst len fun i => m.bytes[src + i]?
  eq_readThenWrite : (Call.copy src dst len).perform m = readThenWrite src dst len m
  eq_init : (Call.copy src dst len).perform m = (Call.init m.bytes src dst len).perform m

/-- Whatever the ranges are, how far they overlap and on which side, a copy inside of a memory moves
the bytes that were there, or traps and changes nothing if one of the ranges leaves the memory. -/
theorem copy_moves (m : Memory) (src dst len : Nat) : m.Moves src dst len := by
  have hread := perform_copy_eq_readThenWrite m src dst len
  have hinit := perform_copy_eq_init m src dst len
  by_cases h : src + len ≤ m.bytes.size ∧ dst + len ≤ m.bytes.size
  · have hrun := hinit.trans (perform_init m.bytes h)
    refine ⟨iff_of_false ?_ (by omega), fun t m' htrap => ?_, fun answer m' hdone => ?_, hread, hinit⟩
    · rintro ⟨t, m', htrap⟩
      rw [hrun] at htrap
      cases htrap
    · rw [hrun] at htrap
      cases htrap
    · rw [hrun] at hdone
      cases hdone
      exact ⟨rfl, replaces_copied h.1 h.2⟩
  · have hrun := hinit.trans (perform_init_trapped m.bytes h)
    refine ⟨iff_of_true ⟨_, _, hrun⟩ (by omega), fun t m' htrap => ?_, fun answer m' hdone => ?_,
      hread, hinit⟩
    · rw [hrun] at htrap
      cases htrap
      exact ⟨rfl, rfl⟩
    · rw [hrun] at hdone
      cases hdone

end WasmAot.Host.Memory
