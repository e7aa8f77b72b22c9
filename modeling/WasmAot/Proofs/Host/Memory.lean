/-
# Memories over whole runs

A running module does many things to a memory, in any order and with any arguments: it adds pages,
stores numbers, and writes, fills and copies ranges.  This file follows a memory from the time it is
made through a sequence of such calls.

A call does one of three things (`perform_cases`).  It traps and the memory stays; it replaces a
range that lies inside of the memory; or it is a request for more pages.  What holds of every memory
on the way is read off from these three, by induction on the calls.
-/
import Mathlib.Algebra.Order.Ring.Int
import WasmAot.Host.Memory
import WasmAot.Proofs.Host.Ranges
import WasmAot.Proofs.Stateful

namespace WasmAot.Host

open Stateful

namespace Memory

/-! ### Calls -/

/-- The calls that can change a memory. -/
inductive Call where
  | grow (delta : Nat)
  | store (value : BitVec 64) (offset bits : Nat)
  | storeFloat (value : BitVec 64) (offset bits : Nat)
  | write (data : Array UInt8) (offset : Nat)
  | fill (len : Nat) (value : UInt8) (offset : Nat)
  | init (segment : Array UInt8) (src dst len : Nat)
  | copy (src dst len : Nat)

/-- Makes a call.  Only a request for more pages has an answer. -/
def Call.perform : Call → EStateM Trap Memory (Option Int)
  | grow delta => do return some (← Memory.grow delta)
  | store value offset bits => do Memory.store value offset bits; return none
  | storeFloat value offset bits => do Memory.storeFloat value offset bits; return none
  | write data offset => do Memory.write data offset; return none
  | fill len value offset => do Memory.fill len value offset; return none
  | init segment src dst len => do Memory.init segment src dst len; return none
  | copy src dst len => do Memory.copy src dst len; return none

/-- The memory after a call, also if the call traps. -/
def after (m : Memory) (call : Call) : Memory :=
  match call.perform m with
  | .ok _ m' => m'
  | .error _ m' => m'

/-- The memory after a sequence of calls. -/
def afterAll (m : Memory) (calls : List Call) : Memory :=
  calls.foldl after m

/-- The call asks for nothing beyond the memory, or beyond the segment it reads from, and a number is
of a width that there is. -/
def Call.Fits (m : Memory) : Call → Prop
  | grow _ => True
  | store _ offset bits => bits ∈ [8, 16, 32, 64] ∧ offset + bits / 8 ≤ m.bytes.size
  | storeFloat _ offset bits => bits ∈ [32, 64] ∧ offset + bits / 8 ≤ m.bytes.size
  | write data offset => offset + data.size ≤ m.bytes.size
  | fill len _ offset => offset + len ≤ m.bytes.size
  | init segment src dst len => src + len ≤ segment.size ∧ dst + len ≤ m.bytes.size
  | copy src dst len => src + len ≤ m.bytes.size ∧ dst + len ≤ m.bytes.size

variable {m m' : Memory}

/-! ### What a call does -/

/-- The memory with new bytes in a range. -/
def spliced (m : Memory) (offset : Nat) (entries : Array UInt8) : Memory :=
  { m with bytes := splice m.bytes offset entries }

lemma read_eq (m : Memory) (offset len : Nat) :
    m.read offset len =
      if offset + len ≤ m.bytes.size then .ok (slice m.bytes offset len)
      else .error .outOfBounds := by
  rw [read, checkRange_eq]
  split <;> rfl

lemma write_run (m : Memory) (data : Array UInt8) (offset : Nat) :
    write data offset m =
      if offset + data.size ≤ m.bytes.size then .ok () (m.spliced offset data)
      else .error .outOfBounds m := by
  rw [write, bind_run_ok (get_run m), checkRange_run]
  rfl

lemma fill_run (m : Memory) (len : Nat) (value : UInt8) (offset : Nat) :
    fill len value offset m =
      if offset + len ≤ m.bytes.size then .ok () (m.spliced offset (Array.replicate len value))
      else .error .outOfBounds m := by
  rw [fill, bind_run_ok (get_run m), checkRange_run]
  rfl

lemma init_run (m : Memory) (segment : Array UInt8) (src dst len : Nat) :
    init segment src dst len m =
      if src + len ≤ segment.size ∧ dst + len ≤ m.bytes.size then
        .ok () (m.spliced dst (slice segment src len))
      else .error .outOfBounds m := by
  rw [init, checkRange_run, bind_run_ok (get_run m), checkRange_run, ite_and]
  rfl

lemma copy_run (m : Memory) (src dst len : Nat) :
    copy src dst len m =
      if src + len ≤ m.bytes.size ∧ dst + len ≤ m.bytes.size then
        .ok () (m.spliced dst (slice m.bytes src len))
      else .error .outOfBounds m := by
  rw [copy, bind_run_ok (get_run m), checkRange_run, bind_run_ok (get_run m), checkRange_run, ite_and]
  rfl

/-- A change is made exactly if it may be made, and then it is in a range inside of the memory. -/
def Acts (m : Memory) (allowed : Prop) (result : EStateM.Result Trap Memory Unit) : Prop :=
  (allowed ∧ ∃ offset entries, offset + entries.size ≤ m.bytes.size ∧
      result = .ok () (m.spliced offset entries)) ∨
    (¬ allowed ∧ ∃ t, result = .error t m)

lemma acts_ite {allowed : Prop} [Decidable allowed] {offset : Nat} {entries : Array UInt8} {t : Trap}
    (hrange : allowed → offset + entries.size ≤ m.bytes.size) :
    Acts m allowed (if allowed then .ok () (m.spliced offset entries) else .error t m) := by
  by_cases h : allowed
  · exact .inl ⟨h, offset, entries, hrange h, if_pos h⟩
  · exact .inr ⟨h, t, if_neg h⟩

lemma write_acts (data : Array UInt8) (offset : Nat) :
    Acts m (offset + data.size ≤ m.bytes.size) (write data offset m) := by
  rw [write_run]
  exact acts_ite id

lemma fill_acts (len : Nat) (value : UInt8) (offset : Nat) :
    Acts m (offset + len ≤ m.bytes.size) (fill len value offset m) := by
  rw [fill_run]
  exact acts_ite fun h => by rwa [Array.size_replicate]

lemma init_acts (segment : Array UInt8) (src dst len : Nat) :
    Acts m (src + len ≤ segment.size ∧ dst + len ≤ m.bytes.size) (init segment src dst len m) := by
  rw [init_run]
  refine acts_ite fun h => ?_
  rw [size_slice h.1]
  exact h.2

lemma copy_acts (src dst len : Nat) :
    Acts m (src + len ≤ m.bytes.size ∧ dst + len ≤ m.bytes.size) (copy src dst len m) := by
  rw [copy_run]
  refine acts_ite fun h => ?_
  rw [size_slice h.1]
  exact h.2

/-- A number of a width that there is none of is refused before anything else. -/
lemma Acts.of_width {bits : Nat} {widths : List Nat} {allowed : Prop}
    {result : EStateM.Result Trap Memory Unit} (hin : bits ∈ widths → Acts m allowed result)
    (hout : bits ∉ widths → ∃ t, result = .error t m) : Acts m (bits ∈ widths ∧ allowed) result := by
  by_cases hbits : bits ∈ widths
  · obtain ⟨hallowed, hdone⟩ | ⟨hrefused, htrap⟩ := hin hbits
    · exact .inl ⟨⟨hbits, hallowed⟩, hdone⟩
    · exact .inr ⟨fun h => hrefused h.2, htrap⟩
  · exact .inr ⟨fun h => hbits h.1, hout hbits⟩

/-- The widths that integers are loaded and stored in. -/
def widths : List Nat := [8, 16, 32, 64]

lemma accessWidth_of_mem {bits : Nat} (h : bits ∈ widths) : accessWidth bits = .ok (bits / 8) :=
  if_pos (by simpa [widths, or_assoc] using h)

/-- A number of a width that there is is written as its bytes. -/
lemma store_run {bits : Nat} (h : bits ∈ widths) (m : Memory) (value : BitVec 64) (offset : Nat) :
    store value offset bits m =
      write (LittleEndian.encode (bits / 8) value.toNat).toArray offset m := by
  rw [store, accessWidth_of_mem h]
  rfl

lemma store_acts (value : BitVec 64) (offset bits : Nat) :
    Acts m (bits ∈ widths ∧ offset + bits / 8 ≤ m.bytes.size) (store value offset bits m) := by
  refine .of_width (fun hbits => ?_) fun hbits => ?_
  · rw [store_run hbits]
    have hwrite := write_acts (m := m) (LittleEndian.encode (bits / 8) value.toNat).toArray offset
    rwa [List.size_toArray, LittleEndian.length_encode] at hwrite
  · have hwidth : accessWidth bits = .error .valueTypeMismatch :=
      if_neg (by simpa [widths, and_assoc] using hbits)
    exact ⟨.valueTypeMismatch, by rw [store, hwidth]; rfl⟩

lemma storeFloat_acts (value : BitVec 64) (offset bits : Nat) :
    Acts m (bits ∈ [32, 64] ∧ offset + bits / 8 ≤ m.bytes.size)
      (storeFloat value offset bits m) := by
  have hwide : ∀ width ∈ [32, 64], width ∈ widths := by decide
  have hstore (pattern : BitVec 64) (hbits : bits ∈ [32, 64]) :
      Acts m (offset + bits / 8 ≤ m.bytes.size) (store pattern offset bits m) := by
    have hacts := store_acts (m := m) pattern offset bits
    rwa [and_iff_right (hwide bits hbits)] at hacts
  refine .of_width (fun hbits => ?_) fun hbits => ?_
  · unfold storeFloat
    split
    · exact hstore _ hbits
    · exact hstore _ hbits
    · simp_all
  · unfold storeFloat
    split
    · simp at hbits
    · simp at hbits
    · exact ⟨_, rfl⟩

/-- A call traps and the memory stays, or it replaces a range inside of the memory, or it asks for
more pages. -/
lemma perform_cases (m : Memory) (call : Call) :
    (¬ call.Fits m ∧ ∃ t, call.perform m = .error t m) ∨
      (call.Fits m ∧ ∃ offset entries, offset + entries.size ≤ m.bytes.size ∧
        call.perform m = .ok none (m.spliced offset entries)) ∨
      ∃ delta, call = .grow delta := by
  -- no call but `grow` has an answer
  have hsilent {change : EStateM Trap Memory Unit} {allowed : Prop}
      (h : Acts m allowed (change m)) :
      (¬ allowed ∧ ∃ t, (do change; return none : EStateM Trap Memory (Option Int)) m = .error t m) ∨
        (allowed ∧ ∃ offset entries, offset + entries.size ≤ m.bytes.size ∧
          (do change; return none : EStateM Trap Memory (Option Int)) m =
            .ok none (m.spliced offset entries)) := by
    obtain ⟨hallowed, offset, entries, hrange, hdone⟩ | ⟨hrefused, t, htrap⟩ := h
    · exact .inr ⟨hallowed, offset, entries, hrange, bind_run_ok hdone⟩
    · exact .inl ⟨hrefused, t, bind_run_error htrap⟩
  rw [← or_assoc]
  cases call with
  | grow delta => exact .inr ⟨delta, rfl⟩
  | store value offset bits => exact .inl (hsilent (store_acts value offset bits))
  | storeFloat value offset bits => exact .inl (hsilent (storeFloat_acts value offset bits))
  | write data offset => exact .inl (hsilent (write_acts data offset))
  | fill len value offset => exact .inl (hsilent (fill_acts len value offset))
  | init segment src dst len => exact .inl (hsilent (init_acts segment src dst len))
  | copy src dst len => exact .inl (hsilent (copy_acts src dst len))

/-! ### More pages -/

/-- The memory with zeroed pages behind it. -/
def extended (m : Memory) (delta : Nat) : Memory :=
  { m with bytes := m.bytes ++ Array.replicate (delta * pageSize) 0 }

lemma perform_grow_refused {delta : Nat} (h : m.maxPages < m.pages + delta) :
    (Call.grow delta).perform m = .ok (some (-1)) m := by
  have hgrow : grow delta m = .ok (-1) m := by
    rw [grow, bind_run_ok (get_run m), if_pos h]
    rfl
  exact bind_run_ok hgrow

lemma perform_grow_granted {delta : Nat} (h : m.pages + delta ≤ m.maxPages) :
    (Call.grow delta).perform m = .ok (some (m.pages : Int)) (m.extended delta) := by
  have hgrow : grow delta m = .ok (m.pages : Int) (m.extended delta) := by
    rw [grow, bind_run_ok (get_run m), if_neg (Nat.not_lt.2 h)]
    rfl
  exact bind_run_ok hgrow

/-- A request for more pages is refused and changes nothing, exactly if there would be too many.
Otherwise the answer is the number of pages before; the bytes stay and zeros come behind them. -/
structure Grows (m : Memory) (delta : Nat) (answer : Int) (m' : Memory) : Prop where
  refused_iff : answer = -1 ↔ m.maxPages < m.pages + delta
  refused : answer = -1 → m' = m
  answer_eq : answer ≠ -1 → answer = m.pages
  size_eq : answer ≠ -1 → m'.bytes.size = m.bytes.size + delta * pageSize
  old : ∀ i < m.bytes.size, m'.bytes[i]? = m.bytes[i]?
  zero : ∀ i < m'.bytes.size, m.bytes.size ≤ i → m'.bytes[i]? = some 0

lemma perform_grow_grows (m : Memory) (delta : Nat) :
    ∃ answer m', (Call.grow delta).perform m = .ok (some answer) m' ∧ m.Grows delta answer m' := by
  by_cases h : m.pages + delta ≤ m.maxPages
  · have hanswer : (m.pages : Int) ≠ -1 := by omega
    refine ⟨_, _, perform_grow_granted h, ?_, fun hrefused => absurd hrefused hanswer, fun _ => rfl,
      fun _ => ?_, fun i hi => ?_, fun i hi hle => ?_⟩
    · exact iff_of_false hanswer (Nat.not_lt.2 h)
    · rw [extended, Array.size_append, Array.size_replicate]
    · exact Array.getElem?_append_left hi
    · rw [extended, Array.size_append, Array.size_replicate] at hi
      rw [extended, Array.getElem?_append_right hle, Array.getElem?_replicate,
        if_pos (by omega)]
  · rw [Nat.not_le] at h
    exact ⟨_, _, perform_grow_refused h, iff_of_true rfl h, fun _ => rfl, fun hne => absurd rfl hne,
      fun hne => absurd rfl hne, fun _ _ => rfl, fun i hi hle => absurd hi (Nat.not_lt.2 hle)⟩

/-! ### The shape of a memory -/

/-- A memory has the shape of one that was made with a number of pages: it is made up of whole pages,
there are no more of them than 32 bits can address, and none was added beyond the maximum. -/
structure Shaped (minPages : Nat) (m : Memory) : Prop where
  whole : pageSize ∣ m.bytes.size
  addressable : m.pages ≤ addressablePages
  bounded : m.pages ≤ max minPages m.maxPages
  maximum : m.maxPages ≤ addressablePages

lemma pages_of_size {n : Nat} (h : m.bytes.size = n * pageSize) : m.pages = n := by
  rw [pages, h]
  exact Nat.mul_div_cancel _ (by decide)

lemma shaped_new {minPages : Nat} {maxPages : Option Nat}
    (h : Memory.new minPages maxPages = .ok m) : m.Shaped minPages := by
  rw [Memory.new] at h
  split at h
  case isFalse => cases h
  case isTrue hle =>
    cases h
    refine ⟨?_, ?_, ?_, Nat.min_le_right ..⟩
    · rw [Array.size_replicate]
      exact Nat.dvd_mul_left ..
    · rwa [pages_of_size Array.size_replicate]
    · rw [pages_of_size Array.size_replicate]
      exact Nat.le_max_left ..

lemma pages_extended (m : Memory) (delta : Nat) : (m.extended delta).pages = m.pages + delta := by
  rw [pages, extended, Array.size_append, Array.size_replicate]
  exact Nat.add_mul_div_right _ _ (by decide)

lemma maxPages_mk (bytes : Array UInt8) (maxPages : Nat) :
    (Memory.mk bytes maxPages).maxPages = maxPages := rfl

-- by the lemma above: `rfl` would compare the bytes of the two memories first
@[simp] lemma maxPages_extended (m : Memory) (delta : Nat) :
    (m.extended delta).maxPages = m.maxPages :=
  maxPages_mk ..

/-- A call leaves the memory, replaces a range inside of it, or adds pages up to the maximum. -/
lemma after_cases (m : Memory) (call : Call) :
    m.after call = m ∨
      (∃ offset entries, offset + entries.size ≤ m.bytes.size ∧
        m.after call = m.spliced offset entries) ∨
      ∃ delta, m.pages + delta ≤ m.maxPages ∧ m.after call = m.extended delta := by
  obtain ⟨-, t, hrun⟩ | ⟨-, offset, entries, hrange, hrun⟩ | ⟨delta, rfl⟩ := perform_cases m call
  · exact .inl (by rw [after, hrun])
  · exact .inr (.inl ⟨offset, entries, hrange, by rw [after, hrun]⟩)
  · by_cases h : m.pages + delta ≤ m.maxPages
    · exact .inr (.inr ⟨delta, h, by rw [after, perform_grow_granted h]⟩)
    · exact .inl (by rw [after, perform_grow_refused (Nat.not_le.1 h)])

lemma maxPages_after (m : Memory) (call : Call) : (m.after call).maxPages = m.maxPages := by
  obtain heq | ⟨offset, entries, -, heq⟩ | ⟨delta, -, heq⟩ := after_cases m call <;> rw [heq]
  · rfl
  · exact maxPages_extended m delta

lemma size_le_after (m : Memory) (call : Call) : m.bytes.size ≤ (m.after call).bytes.size := by
  obtain heq | ⟨offset, entries, hrange, heq⟩ | ⟨delta, -, heq⟩ := after_cases m call <;> rw [heq]
  · exact (size_splice hrange).ge
  · rw [extended, Array.size_append]
    exact Nat.le_add_right ..

lemma Shaped.after {minPages : Nat} (h : m.Shaped minPages) (call : Call) :
    (m.after call).Shaped minPages := by
  obtain heq | ⟨offset, entries, hrange, heq⟩ | ⟨delta, hmax, heq⟩ := after_cases m call <;> rw [heq]
  · exact h
  · have hsize : (m.spliced offset entries).bytes.size = m.bytes.size := size_splice hrange
    have hpages : (m.spliced offset entries).pages = m.pages := congrArg (· / pageSize) hsize
    exact ⟨hsize ▸ h.whole, hpages.trans_le h.addressable, hpages.trans_le h.bounded, h.maximum⟩
  · have hpages := pages_extended m delta
    refine ⟨?_, ?_, ?_, ?_⟩
    · rw [extended, Array.size_append, Array.size_replicate]
      exact (Nat.dvd_add_right h.whole).2 (Nat.dvd_mul_left ..)
    · exact hpages.trans_le (hmax.trans h.maximum)
    · rw [hpages, maxPages_extended]
      exact hmax.trans (Nat.le_max_right ..)
    · rw [maxPages_extended]
      exact h.maximum

/-! ### Whole runs -/

lemma afterAll_cons (m : Memory) (call : Call) (calls : List Call) :
    m.afterAll (call :: calls) = (m.after call).afterAll calls := rfl

lemma Shaped.afterAll {minPages : Nat} (h : m.Shaped minPages) (calls : List Call) :
    (m.afterAll calls).Shaped minPages := by
  induction calls generalizing m with
  | nil => exact h
  | cons call calls ih => exact ih (h.after call)

lemma maxPages_afterAll (m : Memory) (calls : List Call) :
    (m.afterAll calls).maxPages = m.maxPages := by
  induction calls generalizing m with
  | nil => rfl
  | cons call calls ih => rw [afterAll_cons, ih, maxPages_after]

lemma size_le_afterAll (m : Memory) (calls : List Call) :
    m.bytes.size ≤ (m.afterAll calls).bytes.size := by
  induction calls generalizing m with
  | nil => exact Nat.le_refl _
  | cons call calls ih => exact (size_le_after m call).trans (ih (m.after call))

/-- What is known at any time of a memory that was made with a number of pages. -/
structure KeepsShape (minPages : Nat) (start m : Memory) : Prop where
  shaped : m.Shaped minPages
  maxPages_eq : m.maxPages = start.maxPages
  /-- no call makes it shorter, nor does any number of them -/
  size_le : ∀ calls, m.bytes.size ≤ (m.afterAll calls).bytes.size
  grows : ∀ delta, ∃ answer m', (Call.grow delta).perform m = .ok (some answer) m' ∧
    m.Grows delta answer m'
  /-- what a call asks for decides whether it traps -/
  traps_iff : ∀ call : Call, (∃ t m', call.perform m = .error t m') ↔ ¬ call.Fits m
  trapped : ∀ (call : Call) t m', call.perform m = .error t m' → m' = m

/-- Whatever was asked of a memory since it was made, and in whatever order, it has kept its shape:
its length is a number of pages within the bounds, and the next call, whatever it is, does all that
it was asked for or changes nothing. -/
theorem keepsShape_afterAll {minPages : Nat} {maxPages : Option Nat} {start : Memory}
    (h : Memory.new minPages maxPages = .ok start) (calls : List Call) :
    KeepsShape minPages start (start.afterAll calls) where
  shaped := (shaped_new h).afterAll calls
  maxPages_eq := maxPages_afterAll start calls
  size_le := size_le_afterAll _
  grows := perform_grow_grows _
  traps_iff call := by
    obtain ⟨hfits, t, hrun⟩ | ⟨hfits, offset, entries, -, hrun⟩ | ⟨delta, rfl⟩ :=
      perform_cases (start.afterAll calls) call
    · exact iff_of_true ⟨t, _, hrun⟩ hfits
    · refine iff_of_false ?_ (not_not.2 hfits)
      rintro ⟨t, m', htrap⟩
      rw [hrun] at htrap
      cases htrap
    · obtain ⟨answer, m₁, hrun, -⟩ := perform_grow_grows (start.afterAll calls) delta
      refine iff_of_false ?_ (not_not.2 trivial)
      rintro ⟨t, m', htrap⟩
      cases hrun.symm.trans htrap
  trapped call t m' htrap := by
    obtain ⟨-, t', hrun⟩ | ⟨-, offset, entries, -, hrun⟩ | ⟨delta, rfl⟩ :=
      perform_cases (start.afterAll calls) call
    · rw [hrun] at htrap
      cases htrap
      rfl
    · rw [hrun] at htrap
      cases htrap
    · obtain ⟨answer, m₁, hrun, -⟩ := perform_grow_grows (start.afterAll calls) delta
      cases hrun.symm.trans htrap

/-- A memory may be made with more pages than it may grow to; then it does not grow at all. -/
theorem keepsShape_afterAll_overfull :
    ∃ start, Memory.new 3 (some 2) = .ok start ∧ start.maxPages = 2 ∧ start.pages = 3 ∧
      KeepsShape 3 start (start.afterAll [.grow 0, .fill 5 1 196606]) := by
  exact ⟨_, rfl, rfl, pages_of_size Array.size_replicate, keepsShape_afterAll rfl _⟩

end Memory

end WasmAot.Host
