/-
# Constants and the globals that start with them

A global of a module starts with the value of a constant, which may be the value of an earlier
global.  What is meant are the values that the constants have if they are evaluated in the order of
the indices.  An instance gets them in another order: the globals that start with references to
functions have to wait, and hold null when the others are made.  This file compares the two.  A
global gets the value that is meant, unless that is a reference to a function which it takes from a
global that waits, maybe through others that start with its value in turn.
-/
import WasmAot.Host.Global
import WasmAot.Proofs.Naming.Plans

namespace WasmAot

/-- The definition of a global that is not an import, by its index. -/
def Module.ownGlobal? (m : Module) (index : Nat) : Option GlobalDef :=
  if m.importCount .global ≤ index then m.globals[index - m.importCount .global]? else none

namespace Artifact

open Code Host
open Stateful (of_bind_ok)

variable {m : Module}

lemma mem_zipIdx_globals {g : GlobalDef} {index : Nat} :
    (g, index) ∈ m.globals.zipIdx (m.importCount .global) ↔ m.ownGlobal? index = some g := by
  rw [List.mem_zipIdx_iff_le_and_getElem?_sub, Module.ownGlobal?]
  split <;> simp_all

lemma typeOfGlobal_own {g : GlobalDef} {index : Nat} (h : m.ownGlobal? index = some g) :
    m.typeOfGlobal index = .ok g.type := by
  rw [Module.ownGlobal?] at h
  split at h
  case isTrue hle =>
    have htype : m.globalTypes[index]? = some g.type := by
      have hlength := Module.length_globalTypes (m := m)
      rw [Module.globalTypes, List.length_append, List.length_map, Module.count,
        Module.numDefined] at hlength
      rw [Module.globalTypes, List.getElem?_append_right (by omega), List.getElem?_map,
        Nat.add_right_cancel hlength, h, Option.map_some]
    rw [Module.typeOfGlobal, htype]
  case isFalse => cases h

/-! ### Constants -/

/-- The value of a constant, by the values of functions and those that are read from globals. -/
def constValue (func : Nat → Value) (read : Nat → Option Value) : ConstExpr → Option Value
  | .i32 value => some (.i32 value)
  | .i64 value => some (.i64 value)
  | .f32 bits => some (.f32 bits)
  | .f64 bits => some (.f64 bits)
  | .refNull ty => some (.zero ty)
  | .refFunc index => some (func index)
  | .globalGet index => read index

/-- The values of all globals, if the constants are evaluated in the order of the indices: each is
given the values before it. -/
def valuesInOrder (func : Nat → Value) : List Value → List GlobalDef → Option (List Value)
  | values, [] => some values
  | values, g :: globals => do
    let v ← constValue func (values[·]?) g.init
    valuesInOrder func (values ++ [v]) globals

/-- What the checks of a module say about a global. -/
structure CheckedGlobal (m : Module) (index : Nat) (g : GlobalDef) : Prop where
  earlier : ∀ source, g.init = .globalGet source → source < index
  typed : typeOfConst m g.init = .ok g.type.ty

lemma checkedGlobal_of_checkGlobal {index : Nat} {g : GlobalDef}
    (h : checkGlobal m index g = .ok ()) : CheckedGlobal m index g := by
  -- the type is compared at the end in both cases
  have htyped (hrun : (do
      let found ← typeOfConst m g.init
      if found = g.type.ty then .ok ()
      else .error (.validation (.globalInitType index g.type.ty found)) :
        Except Error Unit) = .ok ()) : typeOfConst m g.init = .ok g.type.ty := by
    obtain ⟨found, hfound, hrun⟩ := of_bind_ok hrun
    split at hrun
    case isTrue heq => rw [hfound, heq]
    case isFalse => cases hrun
  unfold checkGlobal at h
  dsimp only at h
  split at h
  case h_1 source hinit =>
    split at h
    case isTrue hlt =>
      refine ⟨fun source' hinit' => ?_, htyped h⟩
      cases hinit.symm.trans hinit'
      exact hlt
    case isFalse => cases h
  case h_2 hinit => exact ⟨fun source hget => absurd hget (hinit source), htyped h⟩

lemma checkedGlobal_of_plan {platform : Platform} {p : Plan} (h : Plan.ofModule platform m = .ok p)
    {index : Nat} {g : GlobalDef} (hg : m.ownGlobal? index = some g) : CheckedGlobal m index g := by
  obtain ⟨named, -, h⟩ := of_bind_ok h
  obtain ⟨⟨⟩, h, -⟩ := of_bind_ok h
  obtain ⟨⟨⟩, -, h⟩ := of_bind_ok h
  obtain ⟨⟨⟩, -, h⟩ := of_bind_ok h
  obtain ⟨⟨⟩, hglobals, -⟩ := of_bind_ok h
  exact checkedGlobal_of_checkGlobal (of_forM hglobals _ (mem_zipIdx_globals.2 hg))

section

variable {func : Nat → Value} {read read' : Nat → Option Value} {init : ConstExpr} {v : Value}

/-- With more to read from, the value is the same. -/
lemma constValue_mono (hread : ∀ k v, read k = some v → read' k = some v)
    (h : constValue func read init = some v) : constValue func read' init = some v := by
  cases init with
  | globalGet index => exact hread index v h
  | _ => exact h

/-- The value has the type of the constant. -/
lemma type_constValue (hfunc : ∀ index, (func index).type = .funcref)
    (hread : ∀ k v, read k = some v → ∃ type, m.typeOfGlobal k = .ok type ∧ v.type = type.ty)
    {ty : ValType} (hty : typeOfConst m init = .ok ty) (h : constValue func read init = some v) :
    v.type = ty := by
  cases init with
  | i32 | i64 | f32 | f64 =>
    cases h
    cases hty
    rfl
  | refNull ty' =>
    cases h
    cases hty
    cases ty <;> rfl
  | refFunc index =>
    cases h
    obtain ⟨_, -, hty⟩ := of_bind_ok hty
    cases hty
    exact hfunc index
  | globalGet index =>
    obtain ⟨type, htype, hty⟩ := of_bind_ok hty
    cases hty
    obtain ⟨type', htype', hv⟩ := hread index v h
    cases htype.symm.trans htype'
    exact hv

end

lemma of_getElem?_push {values : List Value} {u v : Value} {k : Nat}
    (h : (values ++ [v])[k]? = some u) : values[k]? = some u ∨ k = values.length ∧ v = u := by
  rcases Nat.lt_trichotomy k values.length with hlt | rfl | hgt
  · rw [List.getElem?_append_left hlt] at h
    exact .inl h
  · exact .inr ⟨rfl, by simpa using h⟩
  · rw [List.getElem?_eq_none (by simp; omega)] at h
    cases h

section

variable {func : Nat → Value} {values values' : List Value} {globals : List GlobalDef}

/-- The values that are given come first, and the value of each global is that of its constant. -/
lemma of_valuesInOrder (h : valuesInOrder func values globals = some values') :
    (∀ (k : Nat) v, values[k]? = some v → values'[k]? = some v) ∧
      ∀ g k, (g, k) ∈ globals.zipIdx values.length →
        ∃ v, values'[k]? = some v ∧ constValue func (values'[·]?) g.init = some v := by
  induction globals generalizing values with
  | nil =>
    cases h
    exact ⟨fun _ _ => id, nofun⟩
  | cons g globals ih =>
    obtain ⟨v, hv, h⟩ := Option.bind_eq_some_iff.1 h
    obtain ⟨hkeeps, hvalues⟩ := ih h
    have hfirst : ∀ (k : Nat) v, values[k]? = some v → values'[k]? = some v := fun k u hu =>
      hkeeps k u (List.getElem?_append_left (List.getElem?_eq_some_iff.1 hu).1 ▸ hu)
    refine ⟨hfirst, fun g' k hk => ?_⟩
    rw [List.zipIdx_cons] at hk
    rcases List.mem_cons.1 hk with heq | hk
    · cases heq
      exact ⟨v, hkeeps _ v (by simp), constValue_mono hfirst hv⟩
    · exact hvalues g' k (by simpa using hk)

/-- There are values if every global reads from an earlier one. -/
lemma exists_valuesInOrder
    (h : ∀ g k, (g, k) ∈ globals.zipIdx values.length →
      ∀ source, g.init = .globalGet source → source < k) :
    ∃ values', valuesInOrder func values globals = some values' := by
  induction globals generalizing values with
  | nil => exact ⟨values, rfl⟩
  | cons g globals ih =>
    obtain ⟨v, hv⟩ : ∃ v, constValue func (values[·]?) g.init = some v := by
      cases hinit : g.init with
      | globalGet source =>
        have hlt := h g values.length (by simp [List.zipIdx_cons]) source hinit
        exact ⟨values[source], List.getElem?_eq_getElem hlt⟩
      | _ => exact ⟨_, rfl⟩
    obtain ⟨values', hvalues'⟩ := @ih (values ++ [v]) fun g' k hk source hinit =>
      h g' k (by rw [List.zipIdx_cons]; exact List.mem_cons_of_mem _ (by simpa using hk)) source hinit
    exact ⟨values', by rw [valuesInOrder, hv]; exact hvalues'⟩

end

/-- The values have the types of the globals. -/
def TypedValues (m : Module) (values : List Value) : Prop :=
  ∀ (k : Nat) v, values[k]? = some v → ∃ type, m.typeOfGlobal k = .ok type ∧ v.type = type.ty

lemma typedValues_of_valuesInOrder {func : Nat → Value} {list : List GlobalDef}
    {values values' : List Value} (hfunc : ∀ index, (func index).type = .funcref)
    (hlist : ∀ g k, (g, k) ∈ list.zipIdx values.length →
      m.typeOfGlobal k = .ok g.type ∧ typeOfConst m g.init = .ok g.type.ty)
    (htyped : TypedValues m values) (h : valuesInOrder func values list = some values') :
    TypedValues m values' := by
  induction list generalizing values with
  | nil =>
    cases h
    exact htyped
  | cons g list ih =>
    obtain ⟨v, hv, h⟩ := Option.bind_eq_some_iff.1 h
    rw [List.zipIdx_cons] at hlist
    obtain ⟨htype, hconst⟩ := hlist g values.length List.mem_cons_self
    refine ih (fun g' k hk => hlist g' k ?_) (fun k u hu => ?_) h
    · exact List.mem_cons_of_mem _ (by simpa using hk)
    · rcases of_getElem?_push hu with hu | ⟨rfl, rfl⟩
      · exact htyped k u hu
      · exact ⟨g.type, htype, type_constValue hfunc htyped hconst hv⟩

/-! ### Values that are read too early -/

/-- The global starts with a reference to a function, so that it waits for the instance. -/
def HoldsFunction (m : Module) (index : Nat) : Prop :=
  ∃ g func, m.ownGlobal? index = some g ∧ g.init = .refFunc func

/-- The global starts with the value of one that waits for the instance, directly or through others
that start with this value. -/
inductive ReadsFunction (m : Module) : Nat → Prop
  | direct {index source : Nat} {g : GlobalDef} (hown : m.ownGlobal? index = some g)
      (hinit : g.init = .globalGet source) (hsource : HoldsFunction m source) :
      ReadsFunction m index
  | through {index source : Nat} {g : GlobalDef} (hown : m.ownGlobal? index = some g)
      (hinit : g.init = .globalGet source) (hsource : ReadsFunction m source) :
      ReadsFunction m index

section

variable {index : Nat} {g : GlobalDef}

lemma ReadsFunction.exists_source (h : ReadsFunction m index) (hown : m.ownGlobal? index = some g) :
    ∃ source, g.init = .globalGet source ∧ (HoldsFunction m source ∨ ReadsFunction m source) := by
  cases h with
  | direct hown' hinit hsource =>
    cases hown.symm.trans hown'
    exact ⟨_, hinit, .inl hsource⟩
  | through hown' hinit hsource =>
    cases hown.symm.trans hown'
    exact ⟨_, hinit, .inr hsource⟩

lemma readsFunction_iff {source : Nat} (hown : m.ownGlobal? index = some g)
    (hinit : g.init = .globalGet source) :
    ReadsFunction m index ↔ HoldsFunction m source ∨ ReadsFunction m source := by
  constructor
  · intro h
    obtain ⟨source', hinit', hsource⟩ := h.exists_source hown
    cases hinit.symm.trans hinit'
    exact hsource
  · rintro (hsource | hsource)
    · exact .direct hown hinit hsource
    · exact .through hown hinit hsource

lemma le_of_own (h : m.ownGlobal? index = some g) : m.importCount .global ≤ index := by
  rw [Module.ownGlobal?] at h
  split at h
  · assumption
  · cases h

lemma ReadsFunction.le (h : ReadsFunction m index) : m.importCount .global ≤ index := by
  cases h with
  | direct hown | through hown => exact le_of_own hown

lemma exists_own {k : Nat} (h : m.ownGlobal? index = some g) (hle : m.importCount .global ≤ k)
    (hlt : k < index) : ∃ g', m.ownGlobal? k = some g' := by
  rw [Module.ownGlobal?, if_pos (le_of_own h)] at h
  obtain ⟨hindex, -⟩ := List.getElem?_eq_some_iff.1 h
  have hk : k - m.importCount .global < m.globals.length := by omega
  exact ⟨m.globals[k - m.importCount .global], by
    rw [Module.ownGlobal?, if_pos hle, List.getElem?_eq_getElem hk]⟩

end

/-- The value of a global when all steps are done, given the one that it had when the instance was
built. -/
def lastValue (func : Nat → Value) (g : GlobalDef) (v : Value) : Value :=
  match g.init with
  | .refFunc index => func index
  | _ => v

/-- The values are those of the constants. -/
def Evaluates (m : Module) (func : Nat → Value) (values : List Value) : Prop :=
  ∀ g index, m.ownGlobal? index = some g →
    ∃ v, values[index]? = some v ∧ constValue func (values[·]?) g.init = some v

section

variable {func : Nat → Value} {early values : List Value} {g : GlobalDef} {u v : Value}

/-- Null is read from a global that waits, and the function is there later. -/
lemma null_of_holdsFunction (hearly : Evaluates m (fun _ => .funcref none) early)
    (hvalues : Evaluates m func values) (hfunc : ∀ index, func index ≠ .funcref none)
    {source : Nat} (hsource : HoldsFunction m source) (hu : early[source]? = some u)
    (hv : values[source]? = some v) : u = .funcref none ∧ u ≠ v := by
  obtain ⟨g, f, hown, hinit⟩ := hsource
  obtain ⟨u', hu', hconst⟩ := hearly g source hown
  obtain ⟨v', hv', hconst'⟩ := hvalues g source hown
  cases hu.symm.trans hu'
  cases hv.symm.trans hv'
  rw [hinit] at hconst hconst'
  cases hconst
  cases hconst'
  exact ⟨rfl, (hfunc f).symm⟩

/-- A constant that reads no global has one value, with the function for null. -/
lemma lastValue_of_ne {read read' : Nat → Option Value}
    (hget : ¬ ∃ source, g.init = .globalGet source)
    (hu : constValue (fun _ => .funcref none) read g.init = some u)
    (hv : constValue func read' g.init = some v) : lastValue func g u = v := by
  rw [lastValue]
  cases hinit : g.init with
  | globalGet source => exact absurd ⟨source, hinit⟩ hget
  | _ =>
    rw [hinit] at hu hv
    cases hu
    cases hv
    rfl

lemma lastValue_eq_self (h : ¬ ∃ f, g.init = .refFunc f) : lastValue func g u = u := by
  rw [lastValue]
  split
  case h_1 f hinit => exact absurd ⟨f, hinit⟩ h
  case h_2 => rfl

/-- A global has the value that is meant, unless this comes from one that waits; then it has
null. -/
lemma lastValue_eq_iff
    (hchecked : ∀ g index, m.ownGlobal? index = some g → CheckedGlobal m index g)
    (hearly : Evaluates m (fun _ => .funcref none) early) (hvalues : Evaluates m func values)
    (hfunc : ∀ index, func index ≠ .funcref none)
    (himports : ∀ k < m.importCount .global, early[k]? = values[k]?) {index : Nat}
    (hown : m.ownGlobal? index = some g) (hu : early[index]? = some u)
    (hv : values[index]? = some v) :
    (lastValue func g u = v ↔ ¬ ReadsFunction m index) ∧
      (ReadsFunction m index → lastValue func g u = .funcref none) := by
  -- the induction is on the index, since what is read has a smaller one
  induction index using Nat.strong_induction_on generalizing g u v with
  | _ index ih =>
    obtain ⟨u', hu', hconst⟩ := hearly g index hown
    obtain ⟨v', hv', hconst'⟩ := hvalues g index hown
    cases hu.symm.trans hu'
    cases hv.symm.trans hv'
    by_cases hget : ∃ source, g.init = .globalGet source
    · obtain ⟨source, hinit⟩ := hget
      have hlt := (hchecked g index hown).earlier source hinit
      have hlast : lastValue func g u = u := by rw [lastValue, hinit]
      rw [hinit] at hconst hconst'
      rw [hlast, readsFunction_iff hown hinit]
      by_cases hsource : HoldsFunction m source
      · obtain ⟨hnull, hne⟩ := null_of_holdsFunction hearly hvalues hfunc hsource hconst hconst'
        exact ⟨iff_of_false hne (not_not.2 (.inl hsource)), fun _ => hnull⟩
      · rw [or_iff_right hsource]
        by_cases hle : m.importCount .global ≤ source
        · obtain ⟨g', hown'⟩ := exists_own hown hle hlt
          have hcopied := ih source hlt hown' hconst hconst'
          rwa [lastValue_eq_self fun ⟨f, hf⟩ => hsource ⟨g', f, hown', hf⟩] at hcopied
        -- an imported global has its value from the beginning
        · have hnot : ¬ ReadsFunction m source := fun h => hle h.le
          have hsame := himports source (Nat.lt_of_not_le hle)
          have heq : u = v := Option.some.inj (hconst.symm.trans (hsame.trans hconst'))
          exact ⟨iff_of_true heq hnot, fun h => absurd h hnot⟩
    · have hnot : ¬ ReadsFunction m index := by
        intro hreads
        obtain ⟨source, hinit, -⟩ := hreads.exists_source hown
        exact hget ⟨source, hinit⟩
      exact ⟨iff_of_true (lastValue_of_ne hget hconst hconst') hnot, fun h => absurd h hnot⟩

end

end Artifact

end WasmAot
