/-
# Globals over whole runs

A global is written by four calls: with an integer, with a float, with a reference, or with a value
of any type.  They check the kind of what is written in different ways and share one flag, which
says that the global was written before.  This file follows a global from the time it is made
through any sequence of such calls.

A call does one of three things (`perform_cases`): it is refused for its kind, it is refused because
the one write of a global that is not mutable is used up, or it stores its value.  Which calls of a
run have stored something (`Writes`) is then known from the flag, and what is stored from the last
of them.
-/
import Mathlib.Data.List.Induction
import WasmAot.Host.Global
import WasmAot.Proofs.Stateful

namespace WasmAot.Host.Global

open Stateful

/-! ### Calls -/

/-- The calls that write a global. -/
inductive Call where
  | writeInt (v : BitVec 64)
  | writeFloat (bits : BitVec 64)
  | writeRef (v : Value)
  | write (v : Value)

namespace Call

/-- Makes a call. -/
def perform : Call → EStateM Trap Global Unit
  | writeInt v => Global.writeInt v
  | writeFloat bits => Global.writeFloat bits
  | writeRef v => Global.writeRef v
  | write v => Global.write v

/-- What the call writes is of the kind of a global of the type. -/
def Fits (ty : ValType) : Call → Prop
  | writeInt _ => ty.isInt = true
  | writeFloat _ => ty.isFloat = true
  | writeRef v => ty.isRef = true ∧ v.type = ty
  | write v => v.type = ty

/-- What a global of the type holds when the call has written it.  Of an integer, one of 32 bits
keeps the low ones; a float is narrowed if it has to be. -/
def stored (ty : ValType) : Call → Value
  | writeInt v => if ty = .i32 then .i32 (v.extractLsb' 0 32) else .i64 v
  | writeFloat bits =>
    if ty = .f32 then .f32 (BitVec.ofNat 32 (Ieee.double.convert Ieee.single bits.toNat))
    else .f64 bits
  | writeRef v | write v => v

end Call

/-- The global after a call, also if the call fails. -/
def after (g : Global) (call : Call) : Global :=
  match call.perform g with
  | .ok _ g' => g'
  | .error _ g' => g'

/-- The global after a sequence of calls. -/
def afterAll (g : Global) (calls : List Call) : Global :=
  calls.foldl after g

/-- When the calls are made one after the other, the one at position `i` is this one and succeeds.
-/
def Writes (g : Global) (calls : List Call) (i : Nat) (call : Call) : Prop :=
  calls[i]? = some call ∧ ∃ g', call.perform (g.afterAll (calls.take i)) = .ok () g'

/-! ### What a call does -/

variable {g : Global} {call : Call}

lemma write_run (g : Global) (v : Value) :
    write v g = if v.type = g.type then accept v g else .error .globalKindMismatch g := by
  rw [write, bind_run_ok (get_run g)]
  split <;> rfl

/-- A call of the right kind comes down to its value, which is what the flag decides about. -/
lemma perform_of_fits (h : call.Fits g.type) : call.perform g = accept (call.stored g.type) g := by
  cases call with
  | writeInt v =>
    simp only [Call.Fits] at h
    simp only [Call.perform, Call.stored, writeInt]
    rw [bind_run_ok (get_run g)]
    cases hty : g.type with
    | i32 =>
      have hlow : v.truncate 32 = v.extractLsb' 0 32 := BitVec.setWidth_eq_extractLsb' (by decide)
      simp only [hlow, if_true]
    | i64 => rfl
    | _ => rw [hty] at h; cases h
  | writeFloat bits =>
    simp only [Call.Fits] at h
    simp only [Call.perform, Call.stored, writeFloat]
    rw [bind_run_ok (get_run g)]
    cases hty : g.type with
    | f32 | f64 => rfl
    | _ => rw [hty] at h; cases h
  | writeRef v =>
    obtain ⟨href, hty⟩ := h
    rw [← hty] at href
    rw [Call.perform, writeRef, if_pos href, write_run, if_pos hty]
    rfl
  | write v => exact (write_run g v).trans (if_pos h)

lemma perform_of_not_fits (h : ¬ call.Fits g.type) :
    call.perform g = .error .globalKindMismatch g := by
  cases call with
  | writeInt v =>
    simp only [Call.Fits] at h
    simp only [Call.perform, writeInt]
    rw [bind_run_ok (get_run g)]
    cases hty : g.type with
    | i32 | i64 => exact absurd (congrArg ValType.isInt hty) h
    | _ => rfl
  | writeFloat bits =>
    simp only [Call.Fits] at h
    simp only [Call.perform, writeFloat]
    rw [bind_run_ok (get_run g)]
    cases hty : g.type with
    | f32 | f64 => exact absurd (congrArg ValType.isFloat hty) h
    | _ => rfl
  | writeRef v =>
    simp only [Call.perform, writeRef]
    split
    case isFalse => rfl
    case isTrue href =>
      refine (write_run g v).trans (if_neg fun hty => h ⟨?_, hty⟩)
      rwa [← hty]
  | write v => exact (write_run g v).trans (if_neg h)

lemma type_stored {ty : ValType} (h : call.Fits ty) : (call.stored ty).type = ty := by
  cases call with
  | writeInt v =>
    cases ty with
    | i32 | i64 => rfl
    | _ => cases h
  | writeFloat bits =>
    cases ty with
    | f32 | f64 => rfl
    | _ => cases h
  | writeRef v => exact h.2
  | write v => exact h

/-- The global has been written, and may be written only once. -/
def Sealed (g : Global) : Prop :=
  g.initialized = true ∧ g.mutable = false

/-- A call is refused for its kind, or because the global is sealed, or it stores its value. -/
lemma perform_cases (g : Global) (call : Call) :
    (¬ call.Fits g.type ∧ call.perform g = .error .globalKindMismatch g) ∨
      (call.Fits g.type ∧ g.Sealed ∧ call.perform g = .error .immutableGlobal g) ∨
      (call.Fits g.type ∧ ¬ g.Sealed ∧
        call.perform g = .ok () { g with value := call.stored g.type, initialized := true }) := by
  by_cases hfits : call.Fits g.type
  · have hsealed : (g.initialized && !g.mutable) = true ↔ g.Sealed := by
      rw [Bool.and_eq_true, Bool.not_eq_true', Sealed]
    by_cases h : g.Sealed
    · refine .inr (.inl ⟨hfits, h, ?_⟩)
      rw [perform_of_fits hfits, accept, bind_run_ok (get_run g), if_pos (hsealed.2 h)]
      rfl
    · refine .inr (.inr ⟨hfits, h, ?_⟩)
      rw [perform_of_fits hfits, accept, bind_run_ok (get_run g), if_neg (mt hsealed.1 h)]
      rfl
  · exact .inl ⟨hfits, perform_of_not_fits hfits⟩

lemma perform_ok_iff : (∃ g', call.perform g = .ok () g') ↔ call.Fits g.type ∧ ¬ g.Sealed := by
  obtain ⟨_, hrun⟩ | ⟨_, _, hrun⟩ | ⟨_, _, hrun⟩ := perform_cases g call <;> simp [*]

lemma mismatch_iff :
    (∃ g', call.perform g = .error .globalKindMismatch g') ↔ ¬ call.Fits g.type := by
  obtain ⟨_, hrun⟩ | ⟨_, _, hrun⟩ | ⟨_, _, hrun⟩ := perform_cases g call <;> simp [*]

lemma immutable_iff :
    (∃ g', call.perform g = .error .immutableGlobal g') ↔ call.Fits g.type ∧ g.Sealed := by
  obtain ⟨_, hrun⟩ | ⟨_, _, hrun⟩ | ⟨_, _, hrun⟩ := perform_cases g call <;> simp [*]

lemma of_perform_error {t : Trap} {g' : Global} (h : call.perform g = .error t g') :
    (t = .globalKindMismatch ∨ t = .immutableGlobal) ∧ g' = g := by
  obtain ⟨_, hrun⟩ | ⟨_, _, hrun⟩ | ⟨_, _, hrun⟩ := perform_cases g call <;> cases hrun.symm.trans h
  · exact ⟨.inl rfl, rfl⟩
  · exact ⟨.inr rfl, rfl⟩

lemma of_perform_ok {g' : Global} (h : call.perform g = .ok () g') :
    g' = { g with value := call.stored g.type, initialized := true } := by
  obtain ⟨_, hrun⟩ | ⟨_, _, hrun⟩ | ⟨_, _, hrun⟩ := perform_cases g call <;> cases hrun.symm.trans h
  rfl

lemma after_of_ok (h : call.Fits g.type ∧ ¬ g.Sealed) :
    g.after call = { g with value := call.stored g.type, initialized := true } := by
  obtain ⟨g', hrun⟩ := perform_ok_iff.2 h
  rw [after, hrun, ← of_perform_ok hrun]

lemma after_of_not_ok (h : ¬ (call.Fits g.type ∧ ¬ g.Sealed)) : g.after call = g := by
  rw [after]
  cases hrun : call.perform g with
  | ok _ g' => exact absurd (perform_ok_iff.1 ⟨g', hrun⟩) h
  | error t g' => exact (of_perform_error hrun).2

/-! ### Whole runs -/

lemma afterAll_concat (g : Global) (calls : List Call) (call : Call) :
    g.afterAll (calls ++ [call]) = (g.afterAll calls).after call := by
  rw [afterAll, List.foldl_append]
  rfl

/-- One more call at the end of a run changes nothing about those before it. -/
lemma writes_concat_iff {calls : List Call} {i : Nat} {c : Call} :
    g.Writes (calls ++ [call]) i c ↔
      g.Writes calls i c ∨ i = calls.length ∧ c = call ∧
        call.Fits (g.afterAll calls).type ∧ ¬ (g.afterAll calls).Sealed := by
  -- the place is in front of the new call, is that of the call, or is behind it
  rcases Nat.lt_trichotomy i calls.length with hlt | rfl | hgt
  · have hle : i ≤ calls.length := Nat.le_of_lt hlt
    simp [Writes, List.getElem?_append_left hlt, List.take_append_of_le_length hle,
      Nat.ne_of_lt hlt]
  · have hbeyond : ¬ g.Writes calls calls.length c := by simp [Writes]
    have hhere : (calls ++ [call])[calls.length]? = some c ↔ c = call := by simp [eq_comm]
    rw [Writes, hhere, List.take_left, or_iff_right hbeyond, and_iff_right rfl]
    refine and_congr_right fun heq => ?_
    rw [heq, perform_ok_iff]
  · have hlen : (calls ++ [call]).length ≤ i := by
      rw [List.length_append]
      exact hgt
    have hle : calls.length ≤ i := Nat.le_of_lt hgt
    simp [Writes, List.getElem?_eq_none hlen, List.getElem?_eq_none hle, Nat.ne_of_gt hgt]

/-- What is known of a global after a run: its type and whether it may be changed are what they
were, the flag tells whether some call has written it, and it holds what the last such call stored. -/
structure Traces (start : Global) (calls : List Call) (g : Global) : Prop where
  type_eq : g.type = start.type
  mutable_eq : g.mutable = start.mutable
  initialized_iff : g.initialized = true ↔ ∃ i call, start.Writes calls i call
  untouched : (∀ i call, ¬ start.Writes calls i call) → g.value = start.value
  last : ∀ i call, start.Writes calls i call → (∀ j c, start.Writes calls j c → j ≤ i) →
    g.value = call.stored start.type
  once : start.mutable = false → ∀ i call j c, start.Writes calls i call →
    start.Writes calls j c → i = j

lemma not_writes_nil (i : Nat) : ¬ g.Writes [] i call := by
  simp [Writes]

lemma Writes.lt_length {calls : List Call} {i : Nat} (h : g.Writes calls i call) :
    i < calls.length :=
  (List.getElem?_eq_some_iff.1 h.1).1

lemma traces_afterAll {start : Global} (hnew : start.initialized = false) (calls : List Call) :
    Traces start calls (start.afterAll calls) := by
  induction calls using List.reverseRecOn with
  | nil =>
    refine ⟨rfl, rfl, ?_, fun _ => rfl, fun i call h => absurd h (not_writes_nil i),
      fun _ i call _ _ h => absurd h (not_writes_nil i)⟩
    refine iff_of_false (by simp [afterAll, hnew]) ?_
    rintro ⟨i, call, h⟩
    exact not_writes_nil i h
  | append_singleton calls call ih =>
    rw [afterAll_concat]
    by_cases hok : call.Fits (start.afterAll calls).type ∧ ¬ (start.afterAll calls).Sealed
    · -- the call is the last one that has written the global
      have hnow : start.Writes (calls ++ [call]) calls.length call :=
        writes_concat_iff.2 (.inr ⟨rfl, rfl, hok⟩)
      rw [after_of_ok hok]
      refine ⟨?_, ih.mutable_eq, iff_of_true rfl ⟨_, _, hnow⟩, fun h => absurd hnow (h _ _), ?_, ?_⟩
      · exact (type_stored hok.1).trans ih.type_eq
      · intro i c hwrites hlast
        rcases writes_concat_iff.1 hwrites with hbefore | ⟨-, rfl, -⟩
        · exact absurd (hlast _ _ hnow) (Nat.not_le.2 hbefore.lt_length)
        · exact congrArg c.stored ih.type_eq
      · intro hmutable
        -- a global that is not mutable was not written before, since it would be sealed
        have hfirst : ∀ i c, ¬ start.Writes calls i c := fun i c h =>
          hok.2 ⟨ih.initialized_iff.2 ⟨i, c, h⟩, ih.mutable_eq.trans hmutable⟩
        have hlast : ∀ i c, start.Writes (calls ++ [call]) i c → i = calls.length := by
          intro i c hwrites
          rcases writes_concat_iff.1 hwrites with hbefore | ⟨rfl, -⟩
          · exact absurd hbefore (hfirst i c)
          · rfl
        intro i c j d hi hj
        rw [hlast i c hi, hlast j d hj]
    · have hsame : ∀ i c, start.Writes (calls ++ [call]) i c ↔ start.Writes calls i c :=
        fun i c => writes_concat_iff.trans (or_iff_left fun h => hok h.2.2)
      rw [after_of_not_ok hok]
      exact {
        type_eq := ih.type_eq
        mutable_eq := ih.mutable_eq
        initialized_iff := by simpa only [hsame] using ih.initialized_iff
        untouched := by simpa only [hsame] using ih.untouched
        last := by simpa only [hsame] using ih.last
        once := by simpa only [hsame] using ih.once }

/-! ### One kind, and one write -/

/-- The discipline of writing a global that was made with a tag. -/
structure Disciplined (tag : Char) (mutable : Bool) (start : Global) (calls : List Call)
    (g : Global) : Prop where
  type_eq : ValType.ofTag? tag = some g.type
  mutable_eq : g.mutable = mutable
  mismatch_iff : ∀ call : Call,
    (∃ g', call.perform g = .error .globalKindMismatch g') ↔ ¬ call.Fits g.type
  immutable_iff : ∀ call : Call,
    (∃ g', call.perform g = .error .immutableGlobal g') ↔
      call.Fits g.type ∧ mutable = false ∧ ∃ i c, start.Writes calls i c
  /-- there is no other reason to fail, and to fail changes nothing -/
  failed : ∀ (call : Call) t g', call.perform g = .error t g' →
    (t = .globalKindMismatch ∨ t = .immutableGlobal) ∧ g' = g
  succeeded : ∀ (call : Call) g', call.perform g = .ok () g' → g'.value = call.stored g.type
  /-- all writes of a global that is not mutable are the same one, and its value stays -/
  once : mutable = false → ∀ i call j c, start.Writes calls i call → start.Writes calls j c → i = j
  kept : mutable = false → ∀ i call, start.Writes calls i call → g.value = call.stored g.type
  /-- the last write counts -/
  last : ∀ i call, start.Writes calls i call → (∀ j c, start.Writes calls j c → j ≤ i) →
    g.value = call.stored g.type
  untouched : (∀ i call, ¬ start.Writes calls i call) → g.value = Value.zero g.type

lemma eq_of_new {tag : Char} {mutable : Bool} (h : Global.new tag mutable = .ok g) :
    ∃ ty, ValType.ofTag? tag = some ty ∧ g = ⟨Value.zero ty, mutable, false⟩ := by
  rw [Global.new] at h
  split at h
  case h_1 ty htag =>
    cases h
    exact ⟨ty, htag, rfl⟩
  case h_2 => cases h

/-- Whatever was written to a global since it was made, and in whatever order, its type is that of
its tag.  A call that is not of its kind is refused, and so is a second write if it is not mutable; what
is refused changes nothing, and what is not refused is what the global holds from then on, until the
next write that succeeds. -/
theorem disciplined_afterAll {tag : Char} {mutable : Bool} {start : Global}
    (h : Global.new tag mutable = .ok start) (calls : List Call) :
    Disciplined tag mutable start calls (start.afterAll calls) := by
  obtain ⟨ty, htag, rfl⟩ := eq_of_new h
  set start : Global := ⟨Value.zero ty, mutable, false⟩ with hstart
  have htraces : start.Traces calls (start.afterAll calls) := traces_afterAll rfl calls
  have hty : (start.afterAll calls).type = start.type := htraces.type_eq
  have hsealed : (start.afterAll calls).Sealed ↔
      mutable = false ∧ ∃ i c, start.Writes calls i c := by
    rw [Sealed, htraces.initialized_iff, htraces.mutable_eq, and_comm]
  exact {
    type_eq := by rw [htag, hty, hstart, type, Value.type_zero]
    mutable_eq := htraces.mutable_eq
    mismatch_iff := fun call => mismatch_iff
    immutable_iff := fun call => immutable_iff.trans (and_congr_right' hsealed)
    failed := fun call t g' => of_perform_error
    succeeded := fun call g' hok => congrArg value (of_perform_ok hok)
    once := htraces.once
    kept := fun hmutable i call hwrites => by
      rw [hty]
      exact htraces.last i call hwrites fun j c hj =>
        Nat.le_of_eq (htraces.once hmutable j c i call hj hwrites)
    last := by
      rw [hty]
      exact htraces.last
    untouched := fun hnone => by
      rw [htraces.untouched hnone, hty, hstart, type, Value.type_zero] }

/-- A call of the wrong kind does not use up the one write, and no call after the write counts. -/
theorem disciplined_afterAll_i32 :
    ∃ start, Global.new 'i' false = .ok start ∧
      (start.afterAll [.writeFloat 0, .writeInt 0x1_0000_0005, .writeInt 6]).value = .i32 5 ∧
      Disciplined 'i' false start [.writeFloat 0, .writeInt 0x1_0000_0005, .writeInt 6]
        (start.afterAll [.writeFloat 0, .writeInt 0x1_0000_0005, .writeInt 6]) :=
  ⟨_, rfl, rfl, disciplined_afterAll rfl _⟩

end WasmAot.Host.Global
