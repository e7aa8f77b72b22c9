/-
# References of a plan

A plan is made after the parts of the module have been checked against each other.  The checks give
what the steps of the constructor, the handles, the entries and the lookups need: whatever they
refer to is declared.  The steps in front of the one that builds the instance bind the fields that
the struct literal takes from variables, each of them once and in the same order.
-/
import WasmAot.Proofs.Lowering.Recursive
import WasmAot.Proofs.Naming.Declarations
import WasmAot.Proofs.Naming.Sections

namespace WasmAot.Artifact

open Code Text
open Stateful (of_bind_ok)

/-! ### Computations that succeed -/

section

variable {α β : Type}

lemma forall₂_of_mapM {f : α → Except Error β} {l : List α} {l' : List β}
    (h : l.mapM f = .ok l') : List.Forall₂ (fun a b => f a = .ok b) l l' := by
  induction l generalizing l' with
  | nil =>
    cases h
    exact .nil
  | cons a l ih =>
    rw [List.mapM_cons] at h
    obtain ⟨b, hb, h⟩ := of_bind_ok h
    obtain ⟨bs, hbs, h⟩ := of_bind_ok h
    cases h
    exact .cons hb (ih hbs)

lemma exists_of_mapM {f : α → Except Error β} {l : List α} {l' : List β} (h : l.mapM f = .ok l')
    {b : β} (hb : b ∈ l') : ∃ a ∈ l, f a = .ok b := by
  have hrel := forall₂_of_mapM h
  clear h
  induction hrel with
  | nil => cases hb
  | cons hab _ ih =>
    rcases List.mem_cons.1 hb with rfl | hb
    · exact ⟨_, List.mem_cons_self, hab⟩
    · obtain ⟨a, ha, hab⟩ := ih hb
      exact ⟨a, List.mem_cons_of_mem _ ha, hab⟩

lemma exists_image_of_mapM {f : α → Except Error β} {l : List α} {l' : List β}
    (h : l.mapM f = .ok l') {a : α} (ha : a ∈ l) : ∃ b ∈ l', f a = .ok b := by
  have hrel := forall₂_of_mapM h
  clear h
  induction hrel with
  | nil => cases ha
  | cons hab _ ih =>
    rcases List.mem_cons.1 ha with rfl | ha
    · exact ⟨_, List.mem_cons_self, hab⟩
    · obtain ⟨b, hb, hab⟩ := ih ha
      exact ⟨b, List.mem_cons_of_mem _ hb, hab⟩

lemma of_forM {f : α → Except Error Unit} {l : List α} (h : l.forM f = .ok ()) :
    ∀ a ∈ l, f a = .ok () := by
  induction l with
  | nil => exact List.forall_mem_nil _
  | cons a l ih =>
    obtain ⟨⟨⟩, ha, h⟩ := of_bind_ok h
    exact List.forall_mem_cons.2 ⟨ha, ih h⟩

end

lemma filterMap_map_some {α β γ : Type} {f : α → β} {g : β → Option γ} {h : α → γ} {l : List α}
    (hsome : ∀ a ∈ l, g (f a) = some (h a)) : (l.map f).filterMap g = l.map h := by
  rw [List.filterMap_map, ← List.filterMap_eq_map]
  exact List.filterMap_congr hsome

lemma exists_mem_zipIdx_of_mem {α : Type} {l : List α} {a : α} (h : a ∈ l) (n : Nat) :
    ∃ index, (a, index) ∈ l.zipIdx n := by
  have hfst : (l.zipIdx n).map Prod.fst = l := by simp
  rw [← hfst] at h
  obtain ⟨⟨_, index⟩, hmem, rfl⟩ := List.mem_map.1 h
  exact ⟨index, hmem⟩

/-! ### Checks -/

/-- The constant has a type, so what it refers to is there. -/
def Typed (m : Module) (init : ConstExpr) : Prop :=
  ∃ ty, typeOfConst m init = .ok ty

/-- What the checks of a module say about references. -/
structure Checked (m : Module) : Prop where
  imports : ∀ item ∈ m.imports, ∀ r ∈ importRefs item.desc, m.Declares r
  globals : ∀ g ∈ m.globals, Typed m g.init
  elems : ∀ s ∈ m.elements, (∀ item ∈ s.items, Typed m item) ∧
    ∀ table offset, s.mode = .active table offset →
      m.Declares (.field (.table table)) ∧ Typed m offset
  data : ∀ s ∈ m.data, ∀ memory offset, s.mode = .active memory offset →
    m.Declares (.field (.memory memory)) ∧ Typed m offset

section

variable {m : Module}

lemma typed_of_checkOffset {offset : ConstExpr} (h : checkOffset m offset = .ok ()) :
    Typed m offset := by
  obtain ⟨_, -, h⟩ := of_bind_ok h
  obtain ⟨ty, hty, -⟩ := of_bind_ok h
  exact ⟨ty, hty⟩

lemma checked_imports (h : checkFuncTypes m = .ok ()) :
    ∀ item ∈ m.imports, ∀ r ∈ importRefs item.desc, m.Declares r := by
  obtain ⟨⟨⟩, himports, -⟩ := of_bind_ok h
  intro item hitem
  have hchecked := of_forM himports item hitem
  cases hdesc : item.desc with
  | func type =>
    rw [hdesc] at hchecked
    obtain ⟨_, htype, -⟩ := of_bind_ok hchecked
    exact List.forall_mem_singleton.2 (Module.declares_of_typeAt htype)
  | table | memory | global => exact List.forall_mem_nil _

lemma checked_globals (h : checkGlobals m = .ok ()) : ∀ g ∈ m.globals, Typed m g.init := by
  intro g hg
  obtain ⟨index, hindex⟩ := exists_mem_zipIdx_of_mem hg (m.importCount .global)
  have hchecked := of_forM h _ hindex
  have htyped {f : ValType → Except Error Unit} (hrun : (typeOfConst m g.init >>= f) = .ok ()) :
      Typed m g.init := by
    obtain ⟨ty, hty, -⟩ := of_bind_ok hrun
    exact ⟨ty, hty⟩
  -- the order of the globals is checked first, and the type after it in either case
  unfold checkGlobal at hchecked
  dsimp only at hchecked
  split at hchecked
  · split at hchecked
    · exact htyped hchecked
    · cases hchecked
  · exact htyped hchecked

lemma checked_elems (h : checkElems m = .ok ()) :
    ∀ s ∈ m.elements, (∀ item ∈ s.items, Typed m item) ∧
      ∀ table offset, s.mode = .active table offset →
        m.Declares (.field (.table table)) ∧ Typed m offset := by
  intro s hs
  obtain ⟨segment, hsegment⟩ := exists_mem_zipIdx_of_mem hs 0
  have hchecked := of_forM h _ hsegment
  have hitems {g : ConstExpr → ValType → Except Error Unit}
      (hrun : (s.items.forM fun item => typeOfConst m item >>= g item) = .ok ()) :
      ∀ item ∈ s.items, Typed m item := by
    intro item hitem
    obtain ⟨ty, hty, -⟩ := of_bind_ok (of_forM hrun item hitem)
    exact ⟨ty, hty⟩
  -- an active segment has its table and its offset checked before the items
  unfold checkElemSegment at hchecked
  dsimp only at hchecked
  split at hchecked
  · obtain ⟨_, -, hchecked⟩ := of_bind_ok hchecked
    split at hchecked
    · rename_i table offset hmode
      obtain ⟨_, htable, hrest⟩ := of_bind_ok hchecked
      obtain ⟨_, hoffset, hforM⟩ := of_bind_ok hrest
      refine ⟨hitems hforM, fun table' offset' hmode' => ?_⟩
      cases hmode.symm.trans hmode'
      exact ⟨Module.declares_of_typeOfTable htable, typed_of_checkOffset hoffset⟩
    · rename_i hmode
      exact ⟨hitems hchecked, fun table offset hactive => absurd hactive (hmode table offset)⟩
  · cases hchecked

lemma checked_data (h : checkData m = .ok ()) :
    ∀ s ∈ m.data, ∀ memory offset, s.mode = .active memory offset →
      m.Declares (.field (.memory memory)) ∧ Typed m offset := by
  intro s hs memory offset hmode
  have hchecked := of_forM h s hs
  rw [hmode] at hchecked
  obtain ⟨⟨⟩, hmemory, hoffset⟩ := of_bind_ok hchecked
  exact ⟨Module.declares_of_requireMemory hmemory, typed_of_checkOffset hoffset⟩

lemma checked_of_checkModule (h : checkModule m = .ok ()) : Checked m := by
  obtain ⟨⟨⟩, -, h⟩ := of_bind_ok h
  obtain ⟨⟨⟩, htypes, h⟩ := of_bind_ok h
  obtain ⟨⟨⟩, hglobals, h⟩ := of_bind_ok h
  obtain ⟨⟨⟩, helems, h⟩ := of_bind_ok h
  obtain ⟨⟨⟩, hdata, -⟩ := of_bind_ok h
  exact ⟨checked_imports htypes, checked_globals hglobals, checked_elems helems,
    checked_data hdata⟩

/-! ### Values that need the finished instance -/

lemma declares_functionItem {func : Nat} {item : FuncItem} (h : functionItem m func = .ok item) :
    m.Declares item.ref := by
  obtain ⟨refers, hrefers, h⟩ := of_bind_ok h
  cases refers with
  | defined =>
    cases h
    exact Module.declares_of_defined hrefers
  | imported =>
    cases h
    exact Module.declares_of_imported hrefers

lemma declares_initialRefs {init : ConstExpr} (h : Typed m init) :
    ∀ r ∈ initialRefs init, m.Declares r := by
  cases init with
  | globalGet index =>
    obtain ⟨ty, hty⟩ := h
    obtain ⟨type, htype, -⟩ := of_bind_ok hty
    exact List.forall_mem_singleton.2 (Module.declares_of_typeOfGlobal htype)
  | _ => exact List.forall_mem_nil _

lemma declares_offset {init : ConstExpr} {offset : Offset} (htyped : Typed m init)
    (h : offsetOf init = .ok offset) : ∀ r ∈ offset.refs, m.Declares r := by
  cases init with
  | i32 value =>
    cases h
    exact List.forall_mem_nil _
  | globalGet index =>
    cases h
    exact declares_initialRefs htyped
  | _ => cases h

lemma declares_elemItem {init : ConstExpr} {item : ElemItem} (htyped : Typed m init)
    (h : elemItem m init = .ok item) : ∀ r ∈ item.refs, m.Declares r := by
  cases init with
  | refFunc func =>
    obtain ⟨_, hitem, h⟩ := of_bind_ok h
    cases h
    exact List.forall_mem_singleton.2 (declares_functionItem hitem)
  | refNull =>
    cases h
    exact List.forall_mem_nil _
  | globalGet index =>
    cases h
    exact declares_initialRefs htyped
  | _ => cases h

lemma declares_elemItems {inits : List ConstExpr} {items : List ElemItem}
    (htyped : ∀ init ∈ inits, Typed m init) (h : inits.mapM (elemItem m) = .ok items) :
    ∀ r ∈ items.flatMap ElemItem.refs, m.Declares r := by
  intro r hr
  obtain ⟨item, hitem, hr⟩ := List.mem_flatMap.1 hr
  obtain ⟨init, hinit, hrun⟩ := exists_of_mapM h hitem
  exact declares_elemItem (htyped init hinit) hrun r hr

/-! ### Steps -/

/-- The name of something that the unit declares. -/
def IsDeclared (m : Module) (name : String) : Prop :=
  ∃ r, m.Declares r ∧ r.name = name

/-- The step refers to nothing that the unit does not declare. -/
structure Step.Resolved (m : Module) (step : Step) : Prop where
  refs : ∀ r ∈ step.refs, m.Declares r
  inits : ∀ f ∈ step.inits, ∀ value ∈ f.value, CitesText (IsDeclared m) value

lemma lt_count_of_mem_zipIdx {α : Type} {l : List α} {kind : ExternKind}
    (hl : m.numDefined kind = l.length) {a : α} {index : Nat}
    (h : (a, index) ∈ l.zipIdx (m.importCount kind)) : index < m.count kind := by
  have hlt := (List.mem_zipIdx h).2.1
  rw [Module.count, hl]
  omega

lemma resolved_globalSteps (h : Checked m) : ∀ step ∈ globalSteps m, step.Resolved m := by
  intro step hstep
  obtain ⟨⟨g, index⟩, hg, hstep⟩ := List.mem_flatMap.1 hstep
  have hindex : m.Declares (.field (.global index)) := lt_count_of_mem_zipIdx rfl hg
  have htyped : Typed m g.init := h.globals g (List.fst_mem_of_mem_zipIdx hg)
  rcases List.mem_cons.1 hstep with rfl | hstep
  · exact ⟨List.forall_mem_singleton.2 hindex, List.forall_mem_nil _⟩
  · -- a global that holds a function of the module is set once there is an instance
    dsimp only at hstep
    split at hstep
    · cases hstep
    · cases List.mem_singleton.1 hstep
      exact ⟨List.forall_mem_cons.2 ⟨hindex, declares_initialRefs htyped⟩, List.forall_mem_nil _⟩

lemma resolved_funcGlobalSteps {globals : List (GlobalDef × Nat)} {steps : List Step}
    (hglobals : ∀ g ∈ globals, m.Declares (.field (.global g.2)))
    (h : funcGlobalSteps m globals = .ok steps) : ∀ step ∈ steps, step.Resolved m := by
  induction globals generalizing steps with
  | nil =>
    cases h
    exact List.forall_mem_nil _
  | cons p rest ih =>
    obtain ⟨g, index⟩ := p
    obtain ⟨hindex, hrest⟩ := List.forall_mem_cons.1 hglobals
    rw [funcGlobalSteps] at h
    split at h
    · obtain ⟨item, hitem, h⟩ := of_bind_ok h
      obtain ⟨steps', hsteps', h⟩ := of_bind_ok h
      cases h
      refine List.forall_mem_cons.2 ⟨⟨?_, List.forall_mem_nil _⟩, ih hrest hsteps'⟩
      exact List.forall_mem_cons.2
        ⟨hindex, List.forall_mem_singleton.2 (declares_functionItem hitem)⟩
    · exact ih hrest h

lemma resolved_passiveElemSteps {segments : List (ElemSegment × Nat)} {steps : List Step}
    (hsegments : ∀ s ∈ segments, m.Declares (.field (.elem s.2)) ∧ ∀ item ∈ s.1.items, Typed m item)
    (h : passiveElemSteps m segments = .ok steps) : ∀ step ∈ steps, step.Resolved m := by
  induction segments generalizing steps with
  | nil =>
    cases h
    exact List.forall_mem_nil _
  | cons p rest ih =>
    obtain ⟨segment, k⟩ := p
    obtain ⟨⟨hk, hitems⟩, hrest⟩ := List.forall_mem_cons.1 hsegments
    rw [passiveElemSteps] at h
    split at h
    · obtain ⟨items, hrun, h⟩ := of_bind_ok h
      obtain ⟨steps', hsteps', h⟩ := of_bind_ok h
      cases h
      refine List.forall_mem_cons.2 ⟨⟨?_, List.forall_mem_nil _⟩, ih hrest hsteps'⟩
      exact List.forall_mem_cons.2 ⟨hk, declares_elemItems hitems hrun⟩
    · exact ih hrest h

lemma resolved_activeDataSteps {segments : List (DataSegment × Nat)} {steps : List Step}
    (hsegments : ∀ s ∈ segments, m.Declares (.data s.2) ∧ ∀ memory offset,
      s.1.mode = .active memory offset → m.Declares (.field (.memory memory)) ∧ Typed m offset)
    (h : activeDataSteps segments = .ok steps) : ∀ step ∈ steps, step.Resolved m := by
  induction segments generalizing steps with
  | nil =>
    cases h
    exact List.forall_mem_nil _
  | cons p rest ih =>
    obtain ⟨segment, k⟩ := p
    obtain ⟨⟨hk, hactive⟩, hrest⟩ := List.forall_mem_cons.1 hsegments
    rw [activeDataSteps] at h
    split at h
    · rename_i memory init hmode
      obtain ⟨hmemory, htyped⟩ := hactive memory init hmode
      obtain ⟨offset, hoffset, h⟩ := of_bind_ok h
      obtain ⟨steps', hsteps', h⟩ := of_bind_ok h
      cases h
      refine List.forall_mem_cons.2 ⟨⟨?_, List.forall_mem_nil _⟩, ih hrest hsteps'⟩
      exact List.forall_mem_cons.2 ⟨hmemory, List.forall_mem_cons.2
        ⟨hk, declares_offset htyped hoffset⟩⟩
    · exact ih hrest h

lemma resolved_activeElemSteps {segments : List ElemSegment} {steps : List Step}
    (hsegments : ∀ s ∈ segments, (∀ item ∈ s.items, Typed m item) ∧ ∀ table offset,
      s.mode = .active table offset → m.Declares (.field (.table table)) ∧ Typed m offset)
    (h : activeElemSteps m segments = .ok steps) : ∀ step ∈ steps, step.Resolved m := by
  induction segments generalizing steps with
  | nil =>
    cases h
    exact List.forall_mem_nil _
  | cons segment rest ih =>
    obtain ⟨⟨hitems, hactive⟩, hrest⟩ := List.forall_mem_cons.1 hsegments
    rw [activeElemSteps] at h
    split at h
    · rename_i table init hmode
      obtain ⟨htable, htyped⟩ := hactive table init hmode
      obtain ⟨offset, hoffset, h⟩ := of_bind_ok h
      obtain ⟨items, hrun, h⟩ := of_bind_ok h
      obtain ⟨steps', hsteps', h⟩ := of_bind_ok h
      cases h
      refine List.forall_mem_cons.2 ⟨⟨?_, List.forall_mem_nil _⟩, ih hrest hsteps'⟩
      exact List.forall_mem_cons.2 ⟨htable, List.forall_mem_append.2
        ⟨declares_offset htyped hoffset, declares_elemItems hitems hrun⟩⟩
    · exact ih hrest h

lemma resolved_startSteps {steps : List Step} (h : startSteps m = .ok steps) :
    ∀ step ∈ steps, step.Resolved m := by
  unfold startSteps at h
  split at h
  · cases h
    exact List.forall_mem_nil _
  · obtain ⟨refers, hrefers, h⟩ := of_bind_ok h
    cases refers with
    | defined =>
      cases h
      exact List.forall_mem_singleton.2 ⟨List.forall_mem_singleton.2
        (Module.declares_of_defined hrefers), List.forall_mem_nil _⟩
    | imported =>
      cases h
      exact List.forall_mem_singleton.2 ⟨List.forall_mem_singleton.2
        (Module.declares_of_imported hrefers), List.forall_mem_nil _⟩

/-- The field that a step binds to a variable. -/
def Step.bound : Step → Option Field
  | findProvider n _ => some (.provider n)
  | resolve field _ _ => some field
  | newMemory index _ => some (.memory index)
  | newGlobal index _ => some (.global index)
  | newTable index _ => some (.table index)
  | _ => none

/-- The step stands in front of the one that builds the instance. -/
def Step.Early : Step → Prop
  | findProvider .. | resolve .. | newMemory .. | newGlobal .. | initGlobal .. | newTable .. => True
  | _ => False

/-- Items of a kind that the module defines are numbered on from the imported ones. -/
lemma map_zipIdx_defined {α : Type} {l : List α} {kind : ExternKind}
    (hl : m.numDefined kind = l.length) (form : Nat → Field) :
    ((l.zipIdx (m.importCount kind)).map fun q => form q.2) = (m.definedIndices kind).map form := by
  have hsnd : (l.zipIdx (m.importCount kind)).map Prod.snd = m.definedIndices kind := by
    rw [List.zipIdx_map_snd, Module.definedIndices, hl, List.range'_eq_map_range]
  rw [← hsnd, List.map_map]
  rfl

lemma bound_globalSteps :
    (globalSteps m).filterMap Step.bound = (m.definedIndices .global).map .global := by
  rw [← map_zipIdx_defined (l := m.globals) rfl, globalSteps, List.filterMap_flatMap,
    List.map_eq_flatMap]
  refine List.flatMap_congr fun p _ => ?_
  rw [stepsFor]
  split <;> rfl

lemma early_globalSteps : ∀ step ∈ globalSteps m, step.Early := by
  intro step hstep
  obtain ⟨p, -, hstep⟩ := List.mem_flatMap.1 hstep
  rcases List.mem_cons.1 hstep with rfl | hstep
  · trivial
  · split at hstep
    · cases hstep
    · cases List.mem_singleton.1 hstep
      trivial

lemma declares_of_isImported {f : Field} (h : IsImported m f) : m.Declares (.field f) := by
  have hle (kind : ExternKind) : m.importCount kind ≤ m.count kind := Nat.le_add_right _ _
  cases f with
  | func index => exact h
  | memory index => exact lt_of_lt_of_le h (hle .memory)
  | global index => exact lt_of_lt_of_le h (hle .global)
  | table index => exact lt_of_lt_of_le h (hle .table)
  | me | provider _ | data _ | elem _ => exact h.elim

section

variable {p : Plan} (hp : p.For m)

include hp

lemma declares_provider {moduleName : String} {n : Nat} (h : p.provider moduleName = .ok n) :
    m.Declares (.field (.provider n)) := by
  unfold Plan.provider at h
  split at h
  · cases h
    rename_i hfind
    obtain ⟨hlt, -⟩ := List.findIdx?_eq_some_iff_getElem.1 hfind
    rwa [hp.2] at hlt
  · cases h

omit hp in
lemma bound_resolveSteps {steps : List Step} (h : p.resolveSteps = .ok steps) :
    steps.filterMap Step.bound = (importFields p.source).map Prod.snd := by
  have hsteps := forall₂_of_mapM h
  clear h
  generalize importFields p.source = items at hsteps ⊢
  induction hsteps with
  | nil => rfl
  | cons hstep _ ih =>
    obtain ⟨n, -, hstep⟩ := of_bind_ok hstep
    cases hstep
    exact congrArg (List.cons _) ih

lemma resolved_resolveSteps (hchecked : Checked m) {steps : List Step}
    (h : p.resolveSteps = .ok steps) : ∀ step ∈ steps, step.Early ∧ step.Resolved m := by
  intro step hstep
  obtain ⟨i, hi, hrun⟩ := exists_of_mapM h hstep
  obtain ⟨n, hn, hrun⟩ := of_bind_ok hrun
  cases hrun
  rw [hp.1] at hi
  have hfield : m.Declares (.field i.2) :=
    declares_of_isImported (mem_importFields.1 (List.mem_map_of_mem hi))
  have hitem : i.1 ∈ m.imports := by
    obtain ⟨q, hq, rfl⟩ := List.mem_map.1 hi
    exact (List.of_mem_zip hq).1
  exact ⟨trivial, List.forall_mem_cons.2 ⟨hfield, List.forall_mem_cons.2
    ⟨declares_provider hp hn, hchecked.imports i.1 hitem⟩⟩, List.forall_mem_nil _⟩

omit hp in
/-- The literal lists the fields of the struct. -/
lemma map_field_fieldInits (p : Plan) : p.fieldInits.map FieldInit.field = p.fields := by
  have hdata : (p.source.data.zipIdx.map fun s => Field.data s.2) =
      (List.range p.source.data.length).map .data := by
    rw [List.range_eq_range', ← List.zipIdx_map_snd, List.map_map]
    rfl
  have hbound : p.boundFields.map (FieldInit.field ∘ fun f => ⟨f, none⟩) = p.boundFields :=
    List.map_id _
  simp only [Plan.fieldInits, Plan.fields, List.map_append, List.map_map, List.map_cons,
    List.map_nil, hbound, ← hdata]
  rfl

lemma resolved_build : (Step.build p.fieldInits).Resolved m := by
  refine ⟨?_, ?_⟩
  · intro r hr
    obtain ⟨f, hf, rfl⟩ := List.mem_map.1 hr
    rw [← mem_fields hp, ← map_field_fieldInits]
    exact List.mem_map_of_mem hf
  · intro f hf value hvalue
    -- only the value of a passive data segment names something
    rcases List.mem_append.1 hf with hf | hf
    · rcases List.mem_append.1 hf with hf | hf
      · rcases List.mem_append.1 hf with hf | hf
        · cases List.mem_singleton.1 hf
          cases hvalue
          exact (IdleText.literal rfl).cites
        · obtain ⟨_, -, rfl⟩ := List.mem_map.1 hf
          cases hvalue
      · obtain ⟨⟨segment, k⟩, hk, rfl⟩ := List.mem_map.1 hf
        cases hvalue
        have hdata : m.Declares (.data k) := hp.1 ▸ (List.mem_zipIdx' hk).1
        unfold firstData
        split
        · exact (cites_stem (x := "Cell::new(") (.data k) ⟨_, hdata, rfl⟩
            (.literal rfl) rfl rfl).last rfl
        · exact (IdleText.literal rfl).cites
    · obtain ⟨_, -, rfl⟩ := List.mem_map.1 hf
      cases hvalue
      exact (IdleText.literal rfl).cites

/-- The steps in front of the one that builds the instance, with those that find the imports. -/
def earlySteps (p : Plan) (resolved : List Step) : List Step :=
  (p.providers.zipIdx.map fun q => Step.findProvider q.2 q.1) ++ resolved ++
    ((p.source.memories.zipIdx (p.source.importCount .memory)).map fun q =>
      Step.newMemory q.2 q.1) ++ globalSteps p.source ++
    ((p.source.tables.zipIdx (p.source.importCount .table)).map fun q =>
      Step.newTable q.2 q.1.limits)

omit hp in
lemma bound_earlySteps {resolved : List Step} (h : p.resolveSteps = .ok resolved) :
    (earlySteps p resolved).filterMap Step.bound = p.boundFields := by
  have hfound : (p.providers.zipIdx.map fun q => Field.provider q.2) =
      (List.range p.providers.length).map .provider := by
    rw [List.range_eq_range', ← List.zipIdx_map_snd, List.map_map]
    rfl
  have hmemories := @map_zipIdx_defined p.source _ p.source.memories .memory rfl .memory
  have htables := @map_zipIdx_defined p.source _ p.source.tables .table rfl .table
  simp only [earlySteps, Plan.boundFields, List.filterMap_append, bound_resolveSteps h,
    bound_globalSteps, ← hfound, ← hmemories, ← htables]
  rw [filterMap_map_some (g := Step.bound) fun _ _ => rfl,
    filterMap_map_some (g := Step.bound) fun _ _ => rfl,
    filterMap_map_some (g := Step.bound) fun _ _ => rfl]

lemma resolved_earlySteps (hchecked : Checked m) {resolved : List Step}
    (h : p.resolveSteps = .ok resolved) :
    ∀ step ∈ earlySteps p resolved, step.Early ∧ step.Resolved m := by
  have hresolved := resolved_resolveSteps hp hchecked h
  obtain ⟨rfl, hproviders⟩ := hp
  refine List.forall_mem_append.2 ⟨List.forall_mem_append.2 ⟨List.forall_mem_append.2
    ⟨List.forall_mem_append.2 ⟨?_, hresolved⟩, ?_⟩, ?_⟩, ?_⟩
  · refine List.forall_mem_map.2 fun q hq => ⟨trivial, ?_, List.forall_mem_nil _⟩
    have hlt : q.2 < p.providers.length := (List.mem_zipIdx' hq).1
    rw [hproviders] at hlt
    exact List.forall_mem_singleton.2 hlt
  · refine List.forall_mem_map.2 fun q hq => ⟨trivial, ?_, List.forall_mem_nil _⟩
    exact List.forall_mem_singleton.2 (lt_count_of_mem_zipIdx rfl hq)
  · exact fun step hstep =>
      ⟨early_globalSteps step hstep, resolved_globalSteps hchecked step hstep⟩
  · refine List.forall_mem_map.2 fun q hq => ⟨trivial, ?_, List.forall_mem_nil _⟩
    exact List.forall_mem_singleton.2 (lt_count_of_mem_zipIdx rfl hq)

/-- The steps of the constructor, by the one that builds the instance. -/
lemma steps_split (hchecked : Checked m) {steps : List Step} (h : p.steps = .ok steps) :
    ∃ resolved late, p.resolveSteps = .ok resolved ∧
      steps = earlySteps p resolved ++ .build p.fieldInits :: late ∧
        ∀ step ∈ steps, step.Resolved m := by
  obtain ⟨resolved, hresolved, h⟩ := of_bind_ok h
  obtain ⟨funcGlobals, hfuncGlobals, h⟩ := of_bind_ok h
  obtain ⟨passive, hpassive, h⟩ := of_bind_ok h
  obtain ⟨data, hdata, h⟩ := of_bind_ok h
  obtain ⟨elems, helems, h⟩ := of_bind_ok h
  obtain ⟨start, hstart, h⟩ := of_bind_ok h
  cases h
  have hearly := resolved_earlySteps hp hchecked hresolved
  have hbuild := resolved_build hp
  obtain ⟨rfl, -⟩ := hp
  -- publishing the instance and returning it name nothing
  have hplain {step : Step} (hrefs : step.refs = []) (hinits : step.inits = []) :
      step.Resolved p.source :=
    ⟨by rw [hrefs]; exact List.forall_mem_nil _, by rw [hinits]; exact List.forall_mem_nil _⟩
  refine ⟨resolved, .publish :: (funcGlobals ++ passive ++ data ++ elems ++ start ++ [.done]),
    hresolved, by simp only [earlySteps, List.append_assoc, List.cons_append, List.nil_append], ?_⟩
  refine List.forall_mem_append.2 ⟨List.forall_mem_append.2 ⟨List.forall_mem_append.2
    ⟨List.forall_mem_append.2 ⟨List.forall_mem_append.2 ⟨List.forall_mem_append.2
      ⟨List.forall_mem_append.2 ⟨fun step hstep => (hearly step hstep).2, ?_⟩, ?_⟩, ?_⟩, ?_⟩, ?_⟩,
        resolved_startSteps hstart⟩, List.forall_mem_singleton.2 (hplain rfl rfl)⟩
  · exact List.forall_mem_cons.2 ⟨hbuild, List.forall_mem_singleton.2 (hplain rfl rfl)⟩
  · exact resolved_funcGlobalSteps (fun g hg => lt_count_of_mem_zipIdx rfl hg) hfuncGlobals
  · refine resolved_passiveElemSteps (fun s hs => ⟨(List.mem_zipIdx' hs).1, ?_⟩) hpassive
    exact (hchecked.elems s.1 (List.fst_mem_of_mem_zipIdx hs)).1
  · refine resolved_activeDataSteps (fun s hs => ⟨(List.mem_zipIdx' hs).1, ?_⟩) hdata
    exact hchecked.data s.1 (List.fst_mem_of_mem_zipIdx hs)
  · exact resolved_activeElemSteps hchecked.elems helems

/-! ### Handles, entries and lookups -/

lemma declares_handles {handles : List Handle} (h : p.handles = .ok handles) :
    ∀ handle ∈ handles, ∀ r ∈ handle.refs, m.Declares r := by
  obtain ⟨rfl, -⟩ := hp
  intro handle hhandle
  obtain ⟨⟨func, index⟩, hfunc, hrun⟩ := exists_of_mapM h hhandle
  obtain ⟨type, htype, hrun⟩ := of_bind_ok hrun
  cases hrun
  have hle : p.source.importCount .func ≤ index := (List.mem_zipIdx hfunc).1
  have hindex : p.source.Declares (.method index) := ⟨hle, lt_count_of_mem_zipIdx rfl hfunc⟩
  exact List.forall_mem_cons.2 ⟨hindex, List.forall_mem_cons.2
    ⟨Module.declares_of_typeAt htype, List.forall_mem_singleton.2 hindex⟩⟩

/-- Every function of the module has a handle. -/
lemma exists_handle {handles : List Handle} (h : p.handles = .ok handles) {func : Nat}
    (hfunc : m.Declares (.handle func)) : ∃ handle ∈ handles, handle.func = func := by
  obtain ⟨rfl, -⟩ := hp
  have hmem : func ∈ (p.source.functions.zipIdx (p.source.importCount .func)).map Prod.snd := by
    rw [List.zipIdx_map_snd, List.mem_range'_1]
    exact hfunc
  obtain ⟨f, hf, rfl⟩ := List.mem_map.1 hmem
  obtain ⟨handle, hhandle, hrun⟩ := exists_image_of_mapM h hf
  obtain ⟨type, -, hrun⟩ := of_bind_ok hrun
  cases hrun
  exact ⟨_, hhandle, rfl⟩

omit hp in
/-- Every function of the module has a method. -/
lemma exists_method {methods : List Lowering.Method}
    (h : (List.range m.functions.length).mapM (Lowering.lowerFunction m) = .ok methods) {func : Nat}
    (hfunc : m.Declares (.method func)) : ∃ method ∈ methods, method.index = func := by
  obtain ⟨hle, hlt⟩ := hfunc
  rw [Module.count, Module.numDefined] at hlt
  have hposition : func - m.importCount .func ∈ List.range m.functions.length := by
    rw [List.mem_range]
    omega
  obtain ⟨method, hmethod, hrun⟩ := exists_image_of_mapM h hposition
  obtain ⟨_, _, _, -, -, -, rfl⟩ := Lowering.lowerFunction_eq_ok_iff.1 hrun
  exact ⟨_, hmethod, by dsimp only; omega⟩

omit hp in
lemma declares_method {methods : List Lowering.Method}
    (h : (List.range m.functions.length).mapM (Lowering.lowerFunction m) = .ok methods) :
    ∀ method ∈ methods, m.Declares (.method method.index) := by
  intro method hmethod
  obtain ⟨position, hposition, hrun⟩ := exists_of_mapM h hmethod
  obtain ⟨_, _, _, -, -, -, rfl⟩ := Lowering.lowerFunction_eq_ok_iff.1 hrun
  rw [List.mem_range] at hposition
  exact ⟨Nat.le_add_right _ _, by rw [Module.count, Module.numDefined]; dsimp only; omega⟩

omit hp in
lemma declares_itemField {kind : ExternKind} {index : Nat} (hkind : kind ≠ .func)
    (h : index < m.count kind) : m.Declares (.field (itemField kind index)) := by
  cases kind with
  | func => exact absurd rfl hkind
  | memory | table | global => exact h

omit hp in
lemma declares_entryBody {kind : ExternKind} {index : Nat} {body : EntryBody}
    (hindex : index < m.count kind) (h : entryBody m kind index = .ok body) :
    m.Declares body.ref := by
  unfold entryBody at h
  split at h
  · obtain ⟨refers, hrefers, h⟩ := of_bind_ok h
    cases refers with
    | defined =>
      obtain ⟨type, -, h⟩ := of_bind_ok h
      cases h
      exact Module.declares_of_defined hrefers
    | imported =>
      cases h
      exact Module.declares_of_imported hrefers
  · rename_i hkind
    cases h
    exact declares_itemField hkind hindex

omit hp in
lemma declares_found {kind : ExternKind} {index : Nat} (hindex : index < m.count kind) :
    m.Declares (found m kind index).ref := by
  unfold found
  split
  · split
    · rename_i hrefers
      exact Module.declares_of_imported hrefers
    · -- the index is not one of an import, so it is one of the module's own functions
      rename_i hrefers
      refine ⟨?_, hindex⟩
      by_contra hlt
      obtain ⟨item, hitem⟩ : ∃ item, (m.importsOf .func)[index]? = some item :=
        ⟨_, List.getElem?_eq_getElem (Nat.lt_of_not_le hlt)⟩
      exact hrefers _ _ (by rw [Module.funcAt, hitem])
  · rename_i hkind
    exact declares_itemField hkind hindex

/-- What is known of an entry. -/
structure Entry.Resolved (m : Module) (e : Entry) : Prop where
  method : IsMethodName e.method
  body : m.Declares e.body.ref

lemma resolved_entries
    (hexports : ∀ e ∈ p.exports, IsMethodName e.method ∧ e.index < m.count e.kind)
    {entries : List Entry} (h : p.entries = .ok entries) : ∀ e ∈ entries, e.Resolved m := by
  intro entry hentry
  obtain ⟨e, he, hrun⟩ := exists_of_mapM h hentry
  obtain ⟨body, hbody, hrun⟩ := of_bind_ok hrun
  cases hrun
  obtain ⟨hmethod, hindex⟩ := hexports e he
  rw [hp.1] at hbody
  exact ⟨hmethod, declares_entryBody hindex hbody⟩

lemma declares_lookups (hexports : ∀ e ∈ p.exports, e.index < m.count e.kind) :
    ∀ lookup ∈ p.lookups, ∀ arm ∈ lookup.arms, m.Declares arm.2.ref := by
  refine List.forall_mem_map.2 fun kind _ => List.forall_mem_map.2 fun e he => ?_
  rw [hp.1]
  exact declares_found (hexports e (List.mem_of_mem_filter he))

end

end

/-! ### Artifacts -/

/-- The artifact is made by the plan. -/
structure Plan.Makes (p : Plan) (m : Module) (a : Artifact) : Prop where
  source : p.For m
  checked : Checked m
  exports : ∀ e ∈ p.exports, IsMethodName e.method ∧ e.index < m.count e.kind
  data : a.data = m.data.map DataSegment.bytes
  types : a.types = m.types
  fields : a.fields = p.fields
  steps : p.steps = .ok a.steps
  methods : (List.range m.functions.length).mapM (Lowering.lowerFunction m) = .ok a.methods
  handles : p.handles = .ok a.handles
  entries : p.entries = .ok a.entries
  lookups : a.lookups = p.lookups

lemma exists_plan {platform : Platform} {m : Module} {a : Artifact} (h : ofModule platform m = .ok a) :
    ∃ p : Plan, p.Makes m a := by
  obtain ⟨p, hplan, h⟩ := of_bind_ok h
  obtain ⟨steps, hsteps, h⟩ := of_bind_ok h
  obtain ⟨methods, hmethods, h⟩ := of_bind_ok h
  obtain ⟨handles, hhandles, h⟩ := of_bind_ok h
  obtain ⟨entries, hentries, h⟩ := of_bind_ok h
  cases h
  obtain ⟨named, hnamed, hplan⟩ := of_bind_ok hplan
  obtain ⟨⟨⟩, hchecked, hplan⟩ := of_bind_ok hplan
  cases hplan
  exact ⟨_, ⟨rfl, rfl⟩, checked_of_checkModule hchecked, assignNames_spec hnamed, rfl, rfl, rfl,
    hsteps, hmethods, hhandles, hentries, rfl⟩

end WasmAot.Artifact
