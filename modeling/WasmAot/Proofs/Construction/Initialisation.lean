/-
# What the constructor does to globals

The constructor makes the globals of a module one after the other, and each gets its first value as
soon as it is there.  Only a reference to a function waits for the instance.  This file says what
the steps of the constructor do to globals, what they have done when all of them have been carried
out, and in which order the globals are initialised.
-/
import WasmAot.Proofs.Construction.Constants
import WasmAot.Proofs.Host.Globals

namespace WasmAot.Artifact

open Code Host
open Stateful (of_bind_ok)

variable {m : Module}

/-! ### What steps do to globals -/

/-- What an instance finds: the globals that it imports, by their indices, and the places of its
functions. -/
structure Surroundings where
  imported : Nat → Global
  func : Nat → Address

/-- The globals by their indices, as far as they have been made. -/
abbrev Globals := Nat → Option Global

/-- Writes a global that has been made. -/
def Globals.write (globals : Globals) (index : Nat) (v : Value) : Option Globals := do
  let cell ← globals index
  match Global.write v cell with
  | .ok _ cell => some (Function.update globals index (some cell))
  | .error _ _ => none

lemma Globals.write_eq {globals : Globals} {index : Nat} {cell : Global}
    (hcell : globals index = some cell) (v : Value) :
    globals.write index v =
      match Global.write v cell with
      | .ok _ cell' => some (Function.update globals index (some cell'))
      | .error _ _ => none := by
  rw [Globals.write, hcell]
  rfl

/-- The function that is referred to. -/
def FuncItem.func : FuncItem → Nat
  | own func | imported func => func

/-- What a step does to the globals.  The start function is not called here.  A reference to a
function is null as long as there is no instance. -/
def carryOut (w : Surroundings) (globals : Globals) : Step → Option Globals
  | .resolve (.global index) _ _ =>
    some (Function.update globals index (some (w.imported index)))
  | .newGlobal index type => do
    let cell ← (Global.new type.ty.tag type.mutable).toOption
    some (Function.update globals index (some cell))
  | .initGlobal index init => do
    let v ← constValue (fun _ => .funcref none) (fun k => (globals k).map Global.value) init
    globals.write index v
  | .initFuncGlobal index item => globals.write index (.funcref (some (w.func item.func)))
  | _ => some globals

/-- The step does nothing to the globals. -/
def Step.Idle : Step → Prop
  | .resolve .. | .newGlobal .. | .initGlobal .. | .initFuncGlobal .. => False
  | _ => True

section

variable {w : Surroundings} {globals globals' : Globals}

lemma foldlM_idle {steps : List Step} (h : ∀ step ∈ steps, step.Idle) :
    steps.foldlM (carryOut w) globals = some globals := by
  induction steps with
  | nil => rfl
  | cons step steps ih =>
    obtain ⟨hstep, hsteps⟩ := List.forall_mem_cons.1 h
    have hsame : carryOut w globals step = some globals := by
      cases step with
      | resolve | newGlobal | initGlobal | initFuncGlobal => exact hstep.elim
      | _ => rfl
    rw [List.foldlM_cons, hsame]
    exact ih hsteps

lemma exists_of_resolveSteps {p : Plan} {steps : List Step} (h : p.resolveSteps = .ok steps) :
    ∀ step ∈ steps, ∃ field n item, step = .resolve field n item := by
  intro step hstep
  obtain ⟨i, -, hrun⟩ := exists_of_mapM h hstep
  obtain ⟨n, -, hrun⟩ := of_bind_ok hrun
  cases hrun
  exact ⟨_, _, _, rfl⟩

lemma carryOut_resolve (field : Field) (n : Nat) (item : Import) :
    carryOut w globals (.resolve field n item) = some fun k =>
      if .global k = field then some (w.imported k) else globals k := by
  cases field with
  | global index =>
    refine congrArg some (funext fun k => ?_)
    by_cases hk : k = index
    · simp [hk]
    · simp [hk]
  | _ => simp [carryOut]

/-- When the imports have been found, the globals among them are there, and nothing else has been
done to globals. -/
lemma foldlM_resolveSteps {p : Plan} {steps : List Step} (h : p.resolveSteps = .ok steps) :
    steps.foldlM (carryOut w) globals = some fun k =>
      if k < p.source.importCount .global then some (w.imported k) else globals k := by
  have hresolve := exists_of_resolveSteps h
  have hbound (k : Nat) : .global k ∈ steps.filterMap Step.bound ↔
      k < p.source.importCount .global := by
    rw [bound_resolveSteps h, mem_importFields]
    rfl
  have hrun : steps.foldlM (carryOut w) globals = some fun k =>
      if .global k ∈ steps.filterMap Step.bound then some (w.imported k) else globals k := by
    clear h hbound
    induction steps generalizing globals with
    | nil => simp
    | cons step steps ih =>
      obtain ⟨⟨field, n, item, rfl⟩, hsteps⟩ := List.forall_mem_cons.1 hresolve
      rw [List.foldlM_cons, carryOut_resolve]
      refine (ih hsteps).trans (congrArg some (funext fun k => ?_))
      show _ = if .global k ∈ field :: steps.filterMap Step.bound then _ else _
      by_cases hk : .global k ∈ steps.filterMap Step.bound
      · simp [hk]
      · simp [hk]
  simpa only [hbound] using hrun

/-- The global as it is when the others have been made. -/
def firstCell (g : GlobalDef) (v : Value) : Global where
  value := v
  mutable := g.type.mutable
  initialized := match g.init with
    | .refFunc _ => false
    | _ => true

lemma firstCell_of_ne {g : GlobalDef} (h : ¬ ∃ f, g.init = .refFunc f) (v : Value) :
    firstCell g v = ⟨v, g.type.mutable, true⟩ := by
  rw [firstCell]
  split
  case h_1 f hinit => exact absurd ⟨f, hinit⟩ h
  case h_2 => rfl

lemma stepsFor_of_ne {g : GlobalDef} (h : ¬ ∃ f, g.init = .refFunc f) (index : Nat) :
    stepsFor (g, index) = [.newGlobal index g.type, .initGlobal index g.init] := by
  rw [stepsFor]
  split
  case h_1 f hinit => exact absurd ⟨f, hinit⟩ h
  case h_2 => rfl

lemma new_tag (ty : ValType) (mutable : Bool) :
    Global.new ty.tag mutable = .ok ⟨Value.zero ty, mutable, false⟩ := by
  cases ty <;> rfl

lemma write_zero (ty : ValType) (mutable : Bool) (v : Value) :
    Global.write v ⟨.zero ty, mutable, false⟩ =
      if v.type = ty then .ok () ⟨v, mutable, true⟩
      else .error .globalKindMismatch ⟨.zero ty, mutable, false⟩ := by
  rw [Global.write_run, Global.type, Value.type_zero]
  rfl

/-- The globals have these values. -/
def Holds (globals : Globals) (values : List Value) : Prop :=
  ∀ (k : Nat) v, values[k]? = some v → (globals k).map Global.value = some v

section

variable {values : List Value} {v : Value}

lemma Holds.update (h : Holds globals values) (cell : Option Global) :
    Holds (Function.update globals values.length cell) values := by
  intro k u hu
  have hne : k ≠ values.length := Nat.ne_of_lt (List.getElem?_eq_some_iff.1 hu).1
  rw [Function.update_of_ne hne]
  exact h k u hu

lemma Holds.push (h : Holds globals values) (cell : Global) :
    Holds (Function.update globals values.length (some cell)) (values ++ [cell.value]) := by
  intro k u hu
  rcases of_getElem?_push hu with hu | ⟨rfl, rfl⟩
  · exact h.update (some cell) k u hu
  · rw [Function.update_self, Option.map_some]

lemma carryOut_newGlobal (index : Nat) (type : GlobalType) :
    carryOut w globals (.newGlobal index type) =
      some (Function.update globals index (some ⟨.zero type.ty, type.mutable, false⟩)) := by
  rw [carryOut, new_tag]
  rfl

lemma carryOut_initGlobal (h : Holds globals values) {init : ConstExpr}
    (hv : constValue (fun _ => .funcref none) (values[·]?) init = some v) (index : Nat) :
    carryOut w globals (.initGlobal index init) = globals.write index v := by
  rw [carryOut, constValue_mono h hv]
  rfl

/-- A global that is made gets the value of its constant, if this has the right type. -/
lemma foldlM_stepsFor {g : GlobalDef} (hholds : Holds globals values)
    (hv : constValue (fun _ => .funcref none) (values[·]?) g.init = some v)
    (hfunc : ∀ f, g.init = .refFunc f → g.type.ty = .funcref) :
    (stepsFor (g, values.length)).foldlM (carryOut w) globals =
      if v.type = g.type.ty then
        some (Function.update globals values.length (some (firstCell g v)))
      else none := by
  by_cases hwaits : ∃ f, g.init = .refFunc f
  · -- the null that a global holds at first is what a function counts for
    obtain ⟨f, hinit⟩ := hwaits
    have hsteps : stepsFor (g, values.length) = [.newGlobal values.length g.type] := by
      simp only [stepsFor, hinit]
    rw [hinit] at hv
    cases hv
    have hcell : firstCell g (.funcref none) = ⟨.zero g.type.ty, g.type.mutable, false⟩ := by
      simp only [firstCell, hinit, hfunc f hinit]
      rfl
    rw [hsteps, List.foldlM_cons, carryOut_newGlobal]
    dsimp only
    rw [hcell, if_pos (show (Value.funcref none).type = g.type.ty from (hfunc f hinit).symm)]
    rfl
  · rw [stepsFor_of_ne hwaits, List.foldlM_cons, carryOut_newGlobal]
    show carryOut w _ (.initGlobal values.length g.init) >>= some = _
    rw [carryOut_initGlobal (hholds.update _) hv, Globals.write_eq (Function.update_self ..),
      write_zero, firstCell_of_ne hwaits]
    by_cases htype : v.type = g.type.ty
    · rw [if_pos htype, if_pos htype]
      simp only [Function.update_idem]
      rfl
    · rw [if_neg htype, if_neg htype]
      rfl

end

section

variable {list : List GlobalDef} {values values' : List Value}

/-- The globals that are made have the values of their constants, in the order of the indices, where
references to functions are null. -/
lemma of_foldlM_stepsFor (hholds : Holds globals values)
    (hvalues : valuesInOrder (fun _ => .funcref none) values list = some values')
    (hfunc : ∀ g ∈ list, ∀ f, g.init = .refFunc f → g.type.ty = .funcref)
    (h : ((list.zipIdx values.length).flatMap stepsFor).foldlM (carryOut w) globals =
      some globals') :
    (∀ k < values.length, globals' k = globals k) ∧
      ∀ g k, (g, k) ∈ list.zipIdx values.length →
        ∃ v, values'[k]? = some v ∧ globals' k = some (firstCell g v) := by
  induction list generalizing values globals with
  | nil =>
    cases h
    exact ⟨fun _ _ => rfl, fun g k hk => absurd hk List.not_mem_nil⟩
  | cons g list ih =>
    obtain ⟨v, hv, hvalues⟩ := Option.bind_eq_some_iff.1 hvalues
    obtain ⟨hg, hlist⟩ := List.forall_mem_cons.1 hfunc
    rw [List.zipIdx_cons, List.flatMap_cons, List.foldlM_append, foldlM_stepsFor hholds hv hg] at h
    split at h
    case isFalse => cases h
    case isTrue =>
      -- the new global has the next index, so those that were there before are kept
      have hpush : Holds _ (values ++ [v]) := hholds.push (firstCell g v)
      obtain ⟨hkeeps, hcells⟩ := ih hpush hvalues hlist (by simpa using h)
      rw [List.length_append, List.length_singleton] at hkeeps hcells
      have hvalue := (of_valuesInOrder hvalues).1 values.length v (by simp)
      refine ⟨fun k hk => ?_, fun g' k hk => ?_⟩
      · rw [hkeeps k (by omega), Function.update_of_ne (by omega)]
      · rw [List.zipIdx_cons] at hk
        rcases List.mem_cons.1 hk with heq | hk
        · cases heq
          exact ⟨v, hvalue, by rw [hkeeps _ (Nat.lt_succ_self _), Function.update_self]⟩
        · exact hcells g' k hk

/-- The globals can be made if their values have the right types. -/
lemma exists_foldlM_stepsFor (hholds : Holds globals values)
    (hvalues : valuesInOrder (fun _ => .funcref none) values list = some values')
    (hfunc : ∀ g ∈ list, ∀ f, g.init = .refFunc f → g.type.ty = .funcref)
    (htypes : ∀ g k, (g, k) ∈ list.zipIdx values.length →
      ∀ v, values'[k]? = some v → v.type = g.type.ty) :
    ∃ globals', ((list.zipIdx values.length).flatMap stepsFor).foldlM (carryOut w) globals =
      some globals' := by
  induction list generalizing values globals with
  | nil => exact ⟨globals, rfl⟩
  | cons g list ih =>
    obtain ⟨v, hv, hvalues⟩ := Option.bind_eq_some_iff.1 hvalues
    obtain ⟨hg, hlist⟩ := List.forall_mem_cons.1 hfunc
    have hvalue := (of_valuesInOrder hvalues).1 values.length v (by simp)
    have htype := htypes g values.length (by simp [List.zipIdx_cons]) v hvalue
    have hpush : Holds _ (values ++ [v]) := hholds.push (firstCell g v)
    obtain ⟨globals', hrun⟩ := ih hpush hvalues hlist fun g' k hk =>
      htypes g' k (by rw [List.zipIdx_cons]; exact List.mem_cons_of_mem _ (by simpa using hk))
    refine ⟨globals', ?_⟩
    rw [List.zipIdx_cons, List.flatMap_cons, List.foldlM_append, foldlM_stepsFor hholds hv hg,
      if_pos htype]
    simpa using hrun

end

lemma func_of_functionItem {func : Nat} {item : FuncItem} (h : functionItem m func = .ok item) :
    item.func = func := by
  obtain ⟨refers, -, h⟩ := of_bind_ok h
  cases refers with
  | defined | imported =>
    cases h
    rfl

/-- The value of a reference to a function. -/
def Surroundings.funcValue (w : Surroundings) (func : Nat) : Value :=
  .funcref (some (w.func func))

/-- The global as it is when all steps are done, given its value when the instance was built. -/
def lastCell (w : Surroundings) (g : GlobalDef) (v : Value) : Global where
  value := lastValue w.funcValue g v
  mutable := g.type.mutable
  initialized := true

lemma write_firstCell {g : GlobalDef} {v : Value} {func : Nat} (hinit : g.init = .refFunc func)
    (hv : v.type = .funcref) :
    Global.write (w.funcValue func) (firstCell g v) = .ok () (lastCell w g v) := by
  have htype : (w.funcValue func).type = (firstCell g v).type := hv.symm
  have hcell : firstCell g v = ⟨v, g.type.mutable, false⟩ := by simp only [firstCell, hinit]
  rw [Global.write_run, if_pos htype, hcell, lastCell, lastValue, hinit]
  rfl

lemma lastCell_eq_firstCell {g : GlobalDef} {v : Value} (h : ¬ ∃ func, g.init = .refFunc func) :
    lastCell w g v = firstCell g v := by
  rw [lastCell, lastValue_eq_self h, firstCell_of_ne h]

/-- When the instance is there, the functions are written, and the other globals stay as they are. -/
lemma foldlM_funcGlobalSteps {list : List GlobalDef} {n : Nat} {steps : List Step}
    (h : funcGlobalSteps m (list.zipIdx n) = .ok steps)
    (hcells : ∀ g k, (g, k) ∈ list.zipIdx n → ∃ v, globals k = some (firstCell g v) ∧
      ∀ f, g.init = .refFunc f → v.type = .funcref) :
    ∃ globals', steps.foldlM (carryOut w) globals = some globals' ∧
      (∀ k < n, globals' k = globals k) ∧
      ∀ g k v, (g, k) ∈ list.zipIdx n → globals k = some (firstCell g v) →
        globals' k = some (lastCell w g v) := by
  induction list generalizing n globals steps with
  | nil =>
    cases h
    exact ⟨globals, rfl, fun _ _ => rfl, fun g k v hk => absurd hk List.not_mem_nil⟩
  | cons g list ih =>
    rw [List.zipIdx_cons] at h hcells
    obtain ⟨v, hv, hfunc⟩ := hcells g n List.mem_cons_self
    -- the first global is written, unless it has its value already
    obtain ⟨first, rest, rfl, hrest, hfirst⟩ : ∃ first rest, steps = first ++ rest ∧
        funcGlobalSteps m (list.zipIdx (n + 1)) = .ok rest ∧ first.foldlM (carryOut w) globals =
          some (Function.update globals n (some (lastCell w g v))) := by
      rw [funcGlobalSteps] at h
      split at h
      case h_1 func hinit =>
        obtain ⟨item, hitem, h⟩ := of_bind_ok h
        obtain ⟨rest, hrest, h⟩ := of_bind_ok h
        cases h
        refine ⟨[_], rest, rfl, hrest, ?_⟩
        have hwrite : carryOut w globals (.initFuncGlobal n item) =
            globals.write n (w.funcValue func) := by
          rw [← func_of_functionItem hitem]
          rfl
        rw [List.foldlM_cons, hwrite, Globals.write_eq hv, write_firstCell hinit (hfunc func hinit)]
        rfl
      case h_2 hinit =>
        refine ⟨[], steps, rfl, h, congrArg some ?_⟩
        rw [lastCell_eq_firstCell (not_exists.2 hinit), ← hv, Function.update_eq_self]
    -- the globals that follow have larger indices
    have hother : ∀ g' k, (g', k) ∈ list.zipIdx (n + 1) →
        Function.update globals n (some (lastCell w g v)) k = globals k := fun g' k hk =>
      Function.update_of_ne (Nat.ne_of_gt (List.mem_zipIdx hk).1) ..
    have hcells' : ∀ g' k, (g', k) ∈ list.zipIdx (n + 1) → ∃ v',
        Function.update globals n (some (lastCell w g v)) k = some (firstCell g' v') ∧
          ∀ f, g'.init = .refFunc f → v'.type = .funcref := by
      intro g' k hk
      rw [hother g' k hk]
      exact hcells g' k (List.mem_cons_of_mem _ hk)
    obtain ⟨globals', hrun, hkeeps, hlast⟩ := ih hrest hcells'
    refine ⟨globals', ?_, fun k hk => ?_, fun g' k v' hk hv' => ?_⟩
    · rw [List.foldlM_append, hfirst]
      exact hrun
    · rw [hkeeps k (by omega), Function.update_of_ne (by omega)]
    · rw [List.zipIdx_cons] at hk
      rcases List.mem_cons.1 hk with heq | hk
      · cases heq
        cases hv.symm.trans hv'
        rw [hkeeps _ (Nat.lt_succ_self _), Function.update_self]
      · exact hlast g' k v' hk (by rw [hother g' k hk, hv'])

end

/-! ### The steps of a constructor -/

lemma idle_passiveElemSteps {segments : List (ElemSegment × Nat)} {steps : List Step}
    (h : passiveElemSteps m segments = .ok steps) : ∀ step ∈ steps, step.Idle := by
  induction segments generalizing steps with
  | nil =>
    cases h
    exact List.forall_mem_nil _
  | cons s segments ih =>
    rw [passiveElemSteps] at h
    split at h
    · obtain ⟨items, -, h⟩ := of_bind_ok h
      obtain ⟨rest, hrest, h⟩ := of_bind_ok h
      cases h
      exact List.forall_mem_cons.2 ⟨trivial, ih hrest⟩
    · exact ih h

lemma idle_activeDataSteps {segments : List (DataSegment × Nat)} {steps : List Step}
    (h : activeDataSteps segments = .ok steps) : ∀ step ∈ steps, step.Idle := by
  induction segments generalizing steps with
  | nil =>
    cases h
    exact List.forall_mem_nil _
  | cons s segments ih =>
    rw [activeDataSteps] at h
    split at h
    · obtain ⟨offset, -, h⟩ := of_bind_ok h
      obtain ⟨rest, hrest, h⟩ := of_bind_ok h
      cases h
      exact List.forall_mem_cons.2 ⟨trivial, ih hrest⟩
    · exact ih h

lemma idle_activeElemSteps {segments : List ElemSegment} {steps : List Step}
    (h : activeElemSteps m segments = .ok steps) : ∀ step ∈ steps, step.Idle := by
  induction segments generalizing steps with
  | nil =>
    cases h
    exact List.forall_mem_nil _
  | cons s segments ih =>
    rw [activeElemSteps] at h
    split at h
    · obtain ⟨offset, -, h⟩ := of_bind_ok h
      obtain ⟨items, -, h⟩ := of_bind_ok h
      obtain ⟨rest, hrest, h⟩ := of_bind_ok h
      cases h
      exact List.forall_mem_cons.2 ⟨trivial, ih hrest⟩
    · exact ih h

lemma exists_of_funcGlobalSteps {globals : List (GlobalDef × Nat)} {steps : List Step}
    (h : funcGlobalSteps m globals = .ok steps) :
    ∀ step ∈ steps, ∃ index item, step = .initFuncGlobal index item := by
  induction globals generalizing steps with
  | nil =>
    cases h
    exact List.forall_mem_nil _
  | cons g globals ih =>
    rw [funcGlobalSteps] at h
    split at h
    · obtain ⟨item, -, h⟩ := of_bind_ok h
      obtain ⟨rest, hrest, h⟩ := of_bind_ok h
      cases h
      exact List.forall_mem_cons.2 ⟨⟨_, _, rfl⟩, ih hrest⟩
    · exact ih h

lemma idle_startSteps {steps : List Step} (h : startSteps m = .ok steps) :
    ∀ step ∈ steps, step.Idle := by
  unfold startSteps at h
  split at h
  · cases h
    exact List.forall_mem_nil _
  · obtain ⟨refers, -, h⟩ := of_bind_ok h
    cases refers with
    | defined | imported =>
      cases h
      exact List.forall_mem_singleton.2 trivial

/-- The steps of the constructor, by what they do to globals. -/
lemma exists_phases {p : Plan} {steps : List Step} (h : p.steps = .ok steps) :
    ∃ found resolved made built written rest start : List Step,
      steps = found ++ resolved ++ made ++ globalSteps p.source ++ built ++ written ++ rest ++
        start ++ [.done] ∧
      p.resolveSteps = .ok resolved ∧
      funcGlobalSteps p.source (p.source.globals.zipIdx (p.source.importCount .global)) =
        .ok written ∧
      startSteps p.source = .ok start ∧
      ∀ step ∈ found ++ made ++ built ++ rest, step.Idle := by
  obtain ⟨resolved, hresolved, h⟩ := of_bind_ok h
  obtain ⟨written, hwritten, h⟩ := of_bind_ok h
  obtain ⟨passive, hpassive, h⟩ := of_bind_ok h
  obtain ⟨data, hdata, h⟩ := of_bind_ok h
  obtain ⟨elems, helems, h⟩ := of_bind_ok h
  obtain ⟨start, hstart, h⟩ := of_bind_ok h
  cases h
  refine ⟨p.providers.zipIdx.map fun q => .findProvider q.2 q.1, resolved,
    (p.source.memories.zipIdx (p.source.importCount .memory)).map fun q => .newMemory q.2 q.1,
    ((p.source.tables.zipIdx (p.source.importCount .table)).map fun q =>
      .newTable q.2 q.1.limits) ++ [.build p.fieldInits, .publish],
    written, passive ++ data ++ elems, start, by simp only [List.append_assoc], hresolved, hwritten,
    hstart, ?_⟩
  simp only [List.forall_mem_append, List.forall_mem_map]
  exact ⟨⟨⟨fun _ _ => trivial, fun _ _ => trivial⟩, fun _ _ => trivial, by simp [Step.Idle]⟩,
    ⟨idle_passiveElemSteps hpassive, idle_activeDataSteps hdata⟩, idle_activeElemSteps helems⟩

/-! ### Order -/

/-- The step gives the global the value of the constant. -/
def Step.Initialises (index : Nat) (init : ConstExpr) : Step → Prop
  | .initGlobal index' init' => index' = index ∧ init' = init
  | .initFuncGlobal index' item => index' = index ∧ init = .refFunc item.func
  | _ => False

lemma Step.Idle.not_initialises {step : Step} (h : step.Idle) (index : Nat) (init : ConstExpr) :
    ¬ step.Initialises index init := by
  cases step with
  | initGlobal | initFuncGlobal => exact h.elim
  | _ => exact id

/-- What stands neither before nor after a part of a list stands in it. -/
lemma split_inside {α : Type} {x : α} {first middle last before after : List α} (hfirst : x ∉ first)
    (hlast : x ∉ last) (h : first ++ middle ++ last = before ++ x :: after) :
    ∃ before' after', middle = before' ++ x :: after' ∧ before = first ++ before' := by
  rw [List.append_assoc, List.append_eq_append_iff] at h
  rcases h with ⟨before', rfl, h⟩ | ⟨rest, rfl, h⟩
  · rw [List.append_eq_append_iff] at h
    rcases h with ⟨rest, rfl, h⟩ | ⟨rest, rfl, h⟩
    · exact absurd (h ▸ List.mem_append_right rest List.mem_cons_self) hlast
    · cases rest with
      | nil =>
        rw [List.nil_append] at h
        exact absurd (h ▸ List.mem_cons_self) hlast
      | cons y rest =>
        cases h
        exact ⟨before', rest, rfl, rfl⟩
  · cases rest with
    | nil =>
      cases middle with
      | nil =>
        rw [List.nil_append, List.nil_append] at h
        exact absurd (h ▸ List.mem_cons_self) hlast
      | cons y middle =>
        cases h
        exact ⟨[], middle, rfl, by simp⟩
    | cons y rest =>
      cases h
      exact absurd (by simp) hfirst

lemma of_stepsFor_eq {g : GlobalDef} {k index : Nat} {init : ConstExpr} {before after : List Step}
    (h : stepsFor (g, k) = before ++ .initGlobal index init :: after) :
    index = k ∧ init = g.init ∧ before = [.newGlobal k g.type] := by
  rw [stepsFor] at h
  cases before with
  | nil => cases h
  | cons step before =>
    rw [List.cons_append, List.cons.injEq] at h
    obtain ⟨rfl, h⟩ := h
    split at h
    · simp at h
    · cases before with
      | nil =>
        cases h
        exact ⟨rfl, rfl, rfl⟩
      | cons => simp at h

/-- A global that is initialised while they are made has been made right before, after those with
smaller indices. -/
lemma split_stepsFor {globals : List (GlobalDef × Nat)} {before after : List Step} {index : Nat}
    {init : ConstExpr} (h : globals.flatMap stepsFor = before ++ .initGlobal index init :: after) :
    ∃ (earlier : List (GlobalDef × Nat)) (g : GlobalDef) (later : List (GlobalDef × Nat)),
      globals = earlier ++ (g, index) :: later ∧ g.init = init ∧
      before = earlier.flatMap stepsFor ++ [Step.newGlobal index g.type] := by
  induction globals generalizing before with
  | nil => simp at h
  | cons p globals ih =>
    obtain ⟨g, k⟩ := p
    -- what stands after the steps for the first global is split by the induction
    have hlater {tail : List Step} (h : globals.flatMap stepsFor =
        tail ++ .initGlobal index init :: after) : ∃ earlier g' later,
        (g, k) :: globals = earlier ++ (g', index) :: later ∧ g'.init = init ∧
          stepsFor (g, k) ++ tail = earlier.flatMap stepsFor ++ [Step.newGlobal index g'.type] := by
      obtain ⟨earlier, g', later, rfl, hinit, rfl⟩ := ih h
      exact ⟨(g, k) :: earlier, g', later, rfl, hinit, by simp⟩
    rw [List.flatMap_cons, List.append_eq_append_iff] at h
    rcases h with ⟨tail, rfl, h⟩ | ⟨tail, hfirst, h⟩
    · exact hlater h
    · cases tail with
      | nil =>
        rw [List.append_nil] at hfirst
        obtain ⟨earlier, g', later, hglobals, hinit, hbefore⟩ := @hlater [] h.symm
        exact ⟨earlier, g', later, hglobals, hinit, by rw [← hbefore, hfirst, List.append_nil]⟩
      | cons y tail =>
        cases h
        obtain ⟨rfl, rfl, rfl⟩ := of_stepsFor_eq hfirst
        exact ⟨[], g, globals, rfl, rfl, rfl⟩

lemma lt_of_mem_later {globals : List GlobalDef} {n index : Nat} {g : GlobalDef}
    {earlier later : List (GlobalDef × Nat)} (h : globals.zipIdx n = earlier ++ (g, index) :: later)
    {q : GlobalDef × Nat} (hq : q ∈ later) : index < q.2 := by
  have hsorted : (globals.zipIdx n).Pairwise fun q q' => q.2 < q'.2 := by
    rw [← List.pairwise_map (f := Prod.snd) (R := (· < ·)), List.zipIdx_map_snd]
    exact List.pairwise_lt_range'
  rw [h, List.pairwise_append, List.pairwise_cons] at hsorted
  exact hsorted.2.1.1 q hq

lemma not_initialises_of_mem_stepsFor {g : GlobalDef × Nat} {step : Step} (hstep : step ∈ stepsFor g)
    (index func : Nat) : ¬ step.Initialises index (.refFunc func) := by
  rw [stepsFor] at hstep
  rcases List.mem_cons.1 hstep with rfl | hstep
  · exact id
  · split at hstep
    case h_1 => cases hstep
    case h_2 hinit =>
      cases List.mem_singleton.1 hstep
      exact fun h => hinit func h.2

/-- A global that is read by the initialiser of another one has been initialised itself, unless it
waits for the instance. -/
lemma initialised_before_iff {p : Plan} {steps before after : List Step} {index source : Nat}
    {g : GlobalDef}
    (hchecked : ∀ g index, p.source.ownGlobal? index = some g → CheckedGlobal p.source index g)
    (hsteps : p.steps = .ok steps)
    (hsplit : steps = before ++ .initGlobal index (.globalGet source) :: after)
    (hown : p.source.ownGlobal? source = some g) :
    (∃ step ∈ before, step.Initialises source g.init) ↔ ¬ HoldsFunction p.source source := by
  obtain ⟨found, resolved, made, built, written, rest, start, rfl, hresolved, hwritten, hstart,
    hidle⟩ := exists_phases hsteps
  simp only [List.forall_mem_append] at hidle
  obtain ⟨⟨⟨hfound, hmade⟩, hbuilt⟩, hrest⟩ := hidle
  -- nothing is initialised before the globals are made
  have hearly : ∀ step ∈ found ++ resolved ++ made, ∀ k init, ¬ step.Initialises k init := by
    simp only [List.forall_mem_append]
    refine ⟨⟨fun step hstep => (hfound step hstep).not_initialises, fun step hstep k init => ?_⟩,
      fun step hstep => (hmade step hstep).not_initialises⟩
    obtain ⟨_, _, _, rfl⟩ := exists_of_resolveSteps hresolved step hstep
    exact id
  have hfirst : Step.initGlobal index (.globalGet source) ∉ found ++ resolved ++ made :=
    fun hmem => hearly _ hmem index (.globalGet source) ⟨rfl, rfl⟩
  -- once the globals are made, only references to functions are written
  have hlast : Step.initGlobal index (.globalGet source) ∉
      built ++ written ++ rest ++ start ++ [Step.done] := by
    simp only [List.mem_append, List.mem_singleton, not_or]
    refine ⟨⟨⟨⟨hbuilt _, fun hmem => ?_⟩, hrest _⟩, idle_startSteps hstart _⟩, nofun⟩
    obtain ⟨_, _, heq⟩ := exists_of_funcGlobalSteps hwritten _ hmem
    cases heq
  obtain ⟨before', after', hglobals, rfl⟩ := split_inside hfirst hlast
    (by simpa only [List.append_assoc] using hsplit)
  obtain ⟨earlier, g', later, hzip, hinit, rfl⟩ := split_stepsFor hglobals
  constructor
  · rintro ⟨step, hstep, hinitialises⟩ ⟨g'', func, hown', hfunc⟩
    cases hown.symm.trans hown'
    rw [hfunc] at hinitialises
    rcases List.mem_append.1 hstep with hstep | hstep
    · exact hearly step hstep _ _ hinitialises
    · rcases List.mem_append.1 hstep with hstep | hstep
      · obtain ⟨q, -, hstep⟩ := List.mem_flatMap.1 hstep
        exact not_initialises_of_mem_stepsFor hstep _ _ hinitialises
      · cases List.mem_singleton.1 hstep
        exact hinitialises
  · intro hnot
    have hown' : p.source.ownGlobal? index = some g' := by
      rw [← mem_zipIdx_globals, hzip]
      simp
    have hlt := (hchecked g' index hown').earlier source hinit
    -- what is read has a smaller index, so it was made earlier
    have hmem : (g, source) ∈ earlier := by
      have hmem := mem_zipIdx_globals.2 hown
      rw [hzip, List.mem_append, List.mem_cons] at hmem
      rcases hmem with hmem | heq | hmem
      · exact hmem
      · cases heq
        exact absurd hlt (Nat.lt_irrefl _)
      · exact absurd (lt_of_mem_later hzip hmem) (Nat.lt_asymm hlt)
    have hfunc : ¬ ∃ func, g.init = .refFunc func := fun ⟨func, hfunc⟩ =>
      hnot ⟨g, func, hown, hfunc⟩
    have hstep : .initGlobal source g.init ∈ earlier.flatMap stepsFor :=
      List.mem_flatMap.2 ⟨_, hmem, by rw [stepsFor_of_ne hfunc]; simp⟩
    exact ⟨.initGlobal source g.init, by simp [hstep], rfl, rfl⟩

end WasmAot.Artifact
