/-
# The first values of globals

The globals of a module are initialised by steps of the constructor.  This file puts together what
is known about their order and about the values that they leave: a global has been initialised when
another one starts with its value, and this is the value that is meant, unless it is the value of a
global that waits for the instance.
-/
import WasmAot.Proofs.Construction.Initialisation
import WasmAot.Release

namespace WasmAot.Artifact

open Code Host
open Stateful (of_bind_ok)

variable {m : Module}

/-! ### Values -/

namespace Surroundings

variable (w : Surroundings)

/-- The values of the globals that are imported. -/
def importedValues (m : Module) : List Value :=
  (List.range (m.importCount .global)).map fun k => (w.imported k).value

/-- The globals when the imports have been found. -/
def found (m : Module) : Globals := fun k =>
  if k < m.importCount .global then some (w.imported k) else none

/-- The globals that are found have the types that the module asks for. -/
def Provides (m : Module) : Prop :=
  ∀ k < m.importCount .global, ∀ type, m.typeOfGlobal k = .ok type → (w.imported k).type = type.ty

@[simp] lemma length_importedValues : (w.importedValues m).length = m.importCount .global := by
  simp [importedValues]

lemma getElem?_importedValues {k : Nat} {v : Value} :
    (w.importedValues m)[k]? = some v ↔
      k < m.importCount .global ∧ (w.imported k).value = v := by
  simp [importedValues, List.getElem?_eq_some_iff]

lemma holds_found : Holds (w.found m) (w.importedValues m) := by
  intro k v hv
  obtain ⟨hk, rfl⟩ := w.getElem?_importedValues.1 hv
  rw [found, if_pos hk, Option.map_some]

variable {w}

lemma Provides.typedValues (h : w.Provides m) : TypedValues m (w.importedValues m) := by
  intro k v hv
  obtain ⟨hk, rfl⟩ := w.getElem?_importedValues.1 hv
  have hlt : k < m.globalTypes.length := by
    rw [Module.length_globalTypes, Module.count]
    omega
  have htype : m.typeOfGlobal k = .ok m.globalTypes[k] := by
    rw [Module.typeOfGlobal, List.getElem?_eq_getElem hlt]
  exact ⟨_, htype, h k hk _ htype⟩

end Surroundings

section

variable {w : Surroundings} {written : List Step}
  (hchecked : ∀ g index, m.ownGlobal? index = some g → CheckedGlobal m index g)

include hchecked

/-- Evaluated in order, all constants have values, and the value of each fits the others. -/
lemma exists_evaluates (func : Nat → Value) :
    ∃ values, valuesInOrder func (w.importedValues m) m.globals = some values ∧
      (∀ k < m.importCount .global, values[k]? = (w.importedValues m)[k]?) ∧
      Evaluates m func values := by
  obtain ⟨values, hvalues⟩ := @exists_valuesInOrder func (w.importedValues m) m.globals (by
    rw [w.length_importedValues]
    exact fun g k hk => (hchecked g k (mem_zipIdx_globals.1 hk)).earlier)
  obtain ⟨himports, hconst⟩ := of_valuesInOrder hvalues
  rw [w.length_importedValues] at hconst
  refine ⟨values, hvalues, fun k hk => ?_, fun g k hown => hconst g k (mem_zipIdx_globals.2 hown)⟩
  have hvalue := w.getElem?_importedValues.2 ⟨hk, rfl⟩
  rw [hvalue, himports k _ hvalue]

/-- A global that starts with a reference to a function has the type of such references. -/
lemma ty_of_refFunc :
    ∀ g ∈ m.globals, ∀ func, g.init = .refFunc func → g.type.ty = .funcref := by
  intro g hg func hinit
  obtain ⟨index, hindex⟩ := exists_mem_zipIdx_of_mem hg (m.importCount .global)
  have htyped := (hchecked g index (mem_zipIdx_globals.1 hindex)).typed
  rw [hinit] at htyped
  obtain ⟨_, -, htyped⟩ := of_bind_ok htyped
  exact (Except.ok.inj htyped).symm

/-- The globals of a module after the steps that are about them. -/
lemma foldlM_written {early : List Value} {globals : Globals}
    (hearly : valuesInOrder (fun _ => .funcref none) (w.importedValues m) m.globals = some early)
    (hwritten : funcGlobalSteps m (m.globals.zipIdx (m.importCount .global)) = .ok written)
    (hmade : (globalSteps m).foldlM (carryOut w) (w.found m) = some globals) :
    ∃ globals', written.foldlM (carryOut w) globals = some globals' ∧
      ∀ g index, m.ownGlobal? index = some g →
        ∃ v, early[index]? = some v ∧ globals' index = some (lastCell w g v) := by
  obtain ⟨-, hcells⟩ := of_foldlM_stepsFor w.holds_found hearly (ty_of_refFunc hchecked)
    (by rw [w.length_importedValues]; exact hmade)
  obtain ⟨-, hconst⟩ := of_valuesInOrder hearly
  rw [w.length_importedValues] at hcells hconst
  obtain ⟨globals', hrun, -, hlast⟩ := @foldlM_funcGlobalSteps m w globals m.globals _ _ hwritten
    fun g k hk => by
      obtain ⟨v, hv, hcell⟩ := hcells g k hk
      refine ⟨v, hcell, fun func hinit => ?_⟩
      obtain ⟨v', hv', hvalue⟩ := hconst g k hk
      cases hv.symm.trans hv'
      rw [hinit] at hvalue
      cases hvalue
      rfl
  refine ⟨globals', hrun, fun g index hown => ?_⟩
  have hmem := mem_zipIdx_globals.2 hown
  obtain ⟨v, hv, hcell⟩ := hcells g index hmem
  exact ⟨v, hv, hlast g index v hmem hcell⟩

/-- With imports of the right types, the globals can be made. -/
lemma exists_made (hw : w.Provides m) :
    ∃ globals, (globalSteps m).foldlM (carryOut w) (w.found m) = some globals := by
  obtain ⟨early, hearly, -, -⟩ := exists_evaluates hchecked (fun _ => .funcref none)
  have htyped : TypedValues m early := by
    refine typedValues_of_valuesInOrder (fun _ => rfl) (fun g k hk => ?_) hw.typedValues hearly
    rw [w.length_importedValues] at hk
    have hown := mem_zipIdx_globals.1 hk
    exact ⟨typeOfGlobal_own hown, (hchecked g k hown).typed⟩
  obtain ⟨globals, hrun⟩ := @exists_foldlM_stepsFor w _ _ _ _ w.holds_found hearly
    (ty_of_refFunc hchecked)
    fun g k hk v hv => by
      rw [w.length_importedValues] at hk
      obtain ⟨type, htype, hv⟩ := htyped k v hv
      cases htype.symm.trans (typeOfGlobal_own (mem_zipIdx_globals.1 hk))
      exact hv
  rw [w.length_importedValues] at hrun
  exact ⟨globals, hrun⟩

end

/-- The steps before the start function is called make the globals and then write those that wait
for the instance. -/
lemma foldlM_setup {w : Surroundings} {p : Plan}
    {found resolved made built written rest : List Step}
    (hresolved : p.resolveSteps = .ok resolved)
    (hidle : ∀ step ∈ found ++ made ++ built ++ rest, step.Idle) :
    (found ++ resolved ++ made ++ globalSteps p.source ++ built ++ written ++ rest).foldlM
        (carryOut w) (fun _ => none) =
      ((globalSteps p.source).foldlM (carryOut w) (w.found p.source)).bind
        fun globals => written.foldlM (carryOut w) globals := by
  simp only [List.forall_mem_append] at hidle
  obtain ⟨⟨⟨hfound, hmade⟩, hbuilt⟩, hrest⟩ := hidle
  simp only [List.foldlM_append, foldlM_idle hfound, foldlM_idle hmade, foldlM_idle hbuilt,
    foldlM_idle hrest, foldlM_resolveSteps hresolved, Option.bind_eq_bind, Option.bind_some,
    Option.bind_fun_some]
  rfl

lemma source_of_plan {platform : Platform} {m : Module} {p : Plan}
    (h : Plan.ofModule platform m = .ok p) : p.source = m := by
  obtain ⟨named, -, h⟩ := of_bind_ok h
  obtain ⟨⟨⟩, -, h⟩ := of_bind_ok h
  cases h
  rfl

/-- The steps of a constructor that are carried out give every global of the module its first value.

A global that starts with the value of another one of the module does so after the other one got its
own, exactly if the other one does not start with a reference to a function.  Hence, when the start
function is called, the value of a global is that of its constant, evaluated in the order of the
indices, exactly if it does not come from such a reference through other globals; otherwise it is
null. -/
theorem constructor_initialises_globals {platform : Platform} {m : Module} {p : Plan}
    {steps : List Step} (hplan : Plan.ofModule platform m = .ok p) (hsteps : p.steps = .ok steps) :
    (∀ (before after : List Step) (index source : Nat) (g : GlobalDef),
      steps = before ++ .initGlobal index (.globalGet source) :: after →
        m.ownGlobal? source = some g →
          ((∃ step ∈ before, step.Initialises source g.init) ↔ ¬ HoldsFunction m source)) ∧
    ∃ setup start : List Step, steps = setup ++ start ++ [.done] ∧ startSteps m = .ok start ∧
      ∀ w : Surroundings,
        (w.Provides m →
          ∃ globals : Globals, setup.foldlM (carryOut w) (fun _ => none) = some globals) ∧
        ∃ values, valuesInOrder w.funcValue (w.importedValues m) m.globals = some values ∧
          ∀ globals : Globals, setup.foldlM (carryOut w) (fun _ => none) = some globals →
            ∀ (g : GlobalDef) (index : Nat), m.ownGlobal? index = some g →
              ∃ (cell : Global) (v : Value), globals index = some cell ∧ values[index]? = some v ∧
                cell.initialized = true ∧ cell.mutable = g.type.mutable ∧
                (cell.value = v ↔ ¬ ReadsFunction m index) ∧
                (ReadsFunction m index → cell.value = .funcref none) := by
  have hchecked : ∀ g index, m.ownGlobal? index = some g → CheckedGlobal m index g :=
    fun g index => checkedGlobal_of_plan hplan
  obtain rfl := source_of_plan hplan
  refine ⟨fun before after index source g => initialised_before_iff hchecked hsteps, ?_⟩
  obtain ⟨found, resolved, made, built, written, rest, start, rfl, hresolved, hwritten, hstart,
    hidle⟩ := exists_phases hsteps
  refine ⟨_, start, rfl, hstart, fun w => ?_⟩
  rw [foldlM_setup hresolved hidle]
  obtain ⟨early, hearly, himports, hconst⟩ :=
    exists_evaluates (w := w) hchecked fun _ => .funcref none
  obtain ⟨values, hvalues, himports', hconst'⟩ := exists_evaluates (w := w) hchecked w.funcValue
  refine ⟨fun hw => ?_, values, hvalues, fun globals hrun g index hown => ?_⟩
  · obtain ⟨globals, hmade⟩ := exists_made hchecked hw
    obtain ⟨globals', hrun, -⟩ := foldlM_written hchecked hearly hwritten hmade
    exact ⟨globals', by rw [hmade, Option.bind_some, hrun]⟩
  · obtain ⟨made, hmade, hrun⟩ := Option.bind_eq_some_iff.1 hrun
    obtain ⟨globals', hrun', hcells⟩ := foldlM_written hchecked hearly hwritten hmade
    cases hrun.symm.trans hrun'
    obtain ⟨u, hu, hcell⟩ := hcells g index hown
    obtain ⟨v, hv, -⟩ := hconst' g index hown
    obtain ⟨hiff, hnull⟩ := lastValue_eq_iff hchecked hconst hconst' (fun _ => nofun)
      (fun k hk => (himports k hk).trans (himports' k hk).symm) hown hu hv
    exact ⟨_, v, hcell, hv, rfl, rfl, hiff, hnull⟩

/-- A number that is copied, and a reference to a function that is copied. -/
def copying : Module :=
  { types := [⟨[], []⟩]
    functions := [⟨0, [], []⟩]
    globals := [⟨⟨.i32, false⟩, .i32 7⟩, ⟨⟨.i32, true⟩, .globalGet 0⟩,
      ⟨⟨.funcref, false⟩, .refFunc 0⟩, ⟨⟨.funcref, false⟩, .globalGet 2⟩] }

def copyingPlan : Plan :=
  { source := copying, providers := [], exports := [] }

/-- The steps of its constructor. -/
def copyingSteps : List Step :=
  [.newGlobal 0 ⟨.i32, false⟩, .initGlobal 0 (.i32 7),
    .newGlobal 1 ⟨.i32, true⟩, .initGlobal 1 (.globalGet 0),
    .newGlobal 2 ⟨.funcref, false⟩,
    .newGlobal 3 ⟨.funcref, false⟩, .initGlobal 3 (.globalGet 2),
    .build copyingPlan.fieldInits, .publish, .initFuncGlobal 2 (.own 0), .done]

/-- Nothing is imported, and the function is at a place of its own. -/
def nowhere : Surroundings where
  imported _ := ⟨.i32 0, false, true⟩
  func index := 40 + index

theorem constructor_initialises_globals_copying :
    Plan.ofModule .release copying = .ok copyingPlan ∧ copyingPlan.steps = .ok copyingSteps ∧
      (∃ step ∈ copyingSteps.take 3, step.Initialises 0 (.i32 7)) ∧
      ∃ globals, copyingSteps.dropLast.foldlM (carryOut nowhere) (fun _ => none) = some globals ∧
        (globals 1).map Global.value = some (.i32 7) ∧
        (globals 3).map Global.value = some (.funcref none) := by
  have hplan : Plan.ofModule .release copying = .ok copyingPlan := rfl
  have hsteps : copyingPlan.steps = .ok copyingSteps := rfl
  obtain ⟨horder, setup, start, hsplit, hstart, hvalues⟩ :=
    constructor_initialises_globals hplan hsteps
  cases hstart
  obtain rfl : copyingSteps.dropLast = setup := by
    rw [hsplit, List.append_nil, List.dropLast_concat]
  obtain ⟨hruns, values, hinOrder, hcells⟩ := hvalues nowhere
  obtain ⟨globals, hrun⟩ := hruns fun k hk => absurd hk (Nat.not_lt_zero k)
  have hfirst : ¬ HoldsFunction copying 0 := by
    rintro ⟨g, func, hown, hinit⟩
    cases hown
    cases hinit
  refine ⟨hplan, hsteps, (horder _ _ 1 0 _ rfl rfl).2 hfirst, globals, hrun, ?_, ?_⟩
  · obtain ⟨cell, v, hcell, hv, -, -, hiff, -⟩ := hcells globals hrun _ 1 rfl
    have hnot : ¬ ReadsFunction copying 1 := by
      intro hreads
      obtain ⟨source, hget, hsource⟩ := hreads.exists_source rfl
      cases hget
      rcases hsource with hsource | hsource
      · exact hfirst hsource
      · obtain ⟨_, hget, -⟩ := hsource.exists_source rfl
        cases hget
    cases hinOrder
    cases hv
    rw [hcell, Option.map_some, hiff.2 hnot]
  · obtain ⟨cell, v, hcell, -, -, -, -, hnull⟩ := hcells globals hrun _ 3 rfl
    rw [hcell, Option.map_some, hnull (.direct rfl rfl ⟨_, 0, rfl, rfl⟩)]

/-- A global need not have been initialised when another one starts with its value, nor does the
other one get the value that is meant. -/
theorem function_read_before_written :
    (¬ ∀ (m : Module) (p : Plan) (steps : List Step), Plan.ofModule .release m = .ok p →
      p.steps = .ok steps → ∀ (before after : List Step) (index source : Nat) (g : GlobalDef),
        steps = before ++ .initGlobal index (.globalGet source) :: after →
          m.ownGlobal? source = some g → ∃ step ∈ before, step.Initialises source g.init) ∧
    ¬ ∀ (m : Module) (p : Plan) (steps : List Step), Plan.ofModule .release m = .ok p →
      p.steps = .ok steps → m.start = none → ∀ (w : Surroundings) (globals : Globals)
        (values : List Value), steps.foldlM (carryOut w) (fun _ => none) = some globals →
          valuesInOrder w.funcValue (w.importedValues m) m.globals = some values →
            ∀ (g : GlobalDef) (index : Nat), m.ownGlobal? index = some g →
              (globals index).map Global.value = values[index]? := by
  refine ⟨fun h => ?_, fun h => ?_⟩
  · obtain ⟨step, hstep, hinitialises⟩ := h copying copyingPlan copyingSteps rfl rfl
      (copyingSteps.take 6) (copyingSteps.drop 7) 3 2 _ rfl rfl
    have hnone : ∀ step ∈ copyingSteps.take 6, ¬ step.Initialises 2 (.refFunc 0) := by
      simp [copyingSteps, Step.Initialises]
    exact hnone step hstep hinitialises
  · have hvalue := h copying copyingPlan copyingSteps rfl rfl rfl nowhere _ _ rfl rfl _ 3 rfl
    cases hvalue

/-- The two lines in question: the copy, and what it should have waited for. -/
example : ([.initGlobal 3 (.globalGet 2), .initFuncGlobal 2 (.own 0)] : List Step).flatMap
    Step.layout =
      [.plain "global_3.borrow_mut().set(global_2.borrow().get())?;",
        .plain "module.global_2.borrow_mut().set(Value::FuncRef(Some(module.ref_fn_0())))?;"] :=
  rfl

end WasmAot.Artifact
