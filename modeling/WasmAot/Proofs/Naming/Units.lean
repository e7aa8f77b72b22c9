/-
# Names of a unit

The words of the lines of a unit, in the order of its sections.  From them the names that the unit
declares are read off: the fields of the struct, the variables that the constructor binds, the
constants and the methods.  Every reference of a section is among them.
-/
import WasmAot.Proofs.Naming.Bodies
import WasmAot.Proofs.Naming.Outline
import WasmAot.Release

namespace WasmAot.Artifact

open Code Text
open Stateful (of_bind_ok)

/-- The lines of the unit as words; the text ends with the end of a line. -/
def unitLines (a : Artifact) : List (List String) :=
  (a.layout {}).map Line.words ++ [[]]

/-! ### The order of the lines -/

/-- The lines in front of the struct. -/
def topLayout (a : Artifact) : List Text.Line :=
  preamble {} ++ constantsLayout a.data a.types ++ [.plain "#[allow(dead_code)]"]

/-- The words of the head of the constructor. -/
def constructorHead : List String :=
  ["pub", "fn", "new", "env", "mut", "Environment", "name", "str", "Result", "Rc", "Module",
    "InstantiationError"]

/-- The words of the line in front of the fields of the struct literal. -/
def buildHead : List String :=
  ["let", "module", "Rc", "new_cyclic", "me", "Module"]

/-- The lines in front of the head of the constructor. -/
def outerLines (a : Artifact) : List (List String) :=
  (topLayout a).map Line.words ++ ["pub", "struct", "Module"] ::
    (a.fields.map (fun f => (Text.Line.plain s!"{f.name}: {f.type},").words) ++
      [[], [], ["impl", "Module"]])

lemma unitLines_eq {a : Artifact} {early late : List Step} {inits : List FieldInit}
    (h : a.steps = early ++ .build inits :: late) :
    ∃ rest, unitLines a = outerLines a ++ constructorHead ::
      ((early.flatMap Step.layout).map Line.words ++ buildHead ::
        (inits.map (fun f => (Text.Line.plain f.text).words) ++ [] :: rest)) := by
  have hstruct : (Text.Line.opening "pub struct Module \x7b").words = ["pub", "struct", "Module"] :=
    words_literal rfl rfl
  have himpl : (Text.Line.opening "impl Module \x7b").words = ["impl", "Module"] :=
    words_literal rfl rfl
  have hconstructor : (Text.Line.opening ("pub fn new(env: &mut Environment, name: &str) -> " ++
      "Result<Rc<Module>, InstantiationError> \x7b")).words = constructorHead := by
    rw [Line.words, Line.text, String.toList_append]
    rfl
  have hbuild : (Text.Line.opening "let module = Rc::new_cyclic(|me| Module \x7b").words =
      buildHead :=
    words_literal rfl rfl
  have hclose : (Text.Line.closing "\x7d").words = [] := words_literal rfl rfl
  have hclose' : (Text.Line.closing "\x7d);").words = [] := words_literal rfl rfl
  have hblank : Text.Line.blank.words = [] := rfl
  -- what is left is to bring the sections into one list
  simp only [unitLines, layout, structLayout, constructorLayout, outerLines, topLayout, h,
    List.map_append, List.map_cons, List.map_nil, List.flatMap_append, List.flatMap_cons, Step.layout, List.map_map,
    List.append_assoc, List.cons_append, List.nil_append, hstruct, himpl, hconstructor, hbuild,
    hclose, hclose', hblank]
  exact ⟨_, rfl⟩

lemma inner_topLayout (a : Artifact) : ∀ line ∈ (topLayout a).map Line.words, Inner line := by
  refine List.forall_mem_map.2 (List.forall_mem_append.2 ⟨List.forall_mem_append.2
    ⟨inner_preamble, inner_constantsLayout a.data a.types⟩, List.forall_mem_singleton.2 ?_⟩)
  rw [words_literal rfl rfl]
  decide

/-- Lines that begin with a word are not empty. -/
lemma isEmpty_of_prefix {word : String} {line : List String} (h : [word] <+: line) :
    line.isEmpty = false := by
  obtain ⟨rest, rfl⟩ := h
  rfl

lemma head_of_prefix {word : String} {line : List String} (h : [word] <+: line) :
    line.head? = some word := by
  obtain ⟨rest, rfl⟩ := h
  rfl

/-- The constructor and the struct literal begin behind these lines. -/
lemma not_begun_of_outer (a : Artifact) :
    ∀ line ∈ outerLines a, isConstructor line = false ∧ isBuild line = false := by
  have hinner {line : List String} (h : Inner line) :
      isConstructor line = false ∧ isBuild line = false := ⟨h.isConstructor, h.isBuild⟩
  refine List.forall_mem_append.2 ⟨fun line hline => hinner (inner_topLayout a line hline),
    List.forall_mem_cons.2 ⟨by decide, List.forall_mem_append.2 ⟨?_, by decide⟩⟩⟩
  exact List.forall_mem_map.2 fun f _ => hinner (inner_of_field (words_structField f))

/-- The fields without a value are the bound ones. -/
lemma filterMap_unset (p : Plan) :
    (p.fieldInits.filterMap fun f => if f.value = none then some f.field.name else none) =
      p.boundFields.map Field.name := by
  -- the instance itself and the segments have a value
  have hset {α : Type} {l : List α} {field : α → Field} {value : α → String} :
      ((l.map fun x => FieldInit.mk (field x) (some (value x))).filterMap fun f =>
        if f.value = none then some f.field.name else none) = [] :=
    List.filterMap_eq_nil_iff.2 (List.forall_mem_map.2 fun _ _ => rfl)
  have hunset : ((p.boundFields.map fun f => FieldInit.mk f none).filterMap fun f =>
      if f.value = none then some f.field.name else none) = p.boundFields.map Field.name :=
    filterMap_map_some fun _ _ => rfl
  rw [Plan.fieldInits, List.filterMap_append, List.filterMap_append, List.filterMap_append, hset,
    hset, hunset, List.append_nil, List.append_nil]
  rfl

section

variable {p : Plan} {m : Module} {a : Artifact} (h : p.Makes m a)

include h

/-- A unit up to the end of the struct literal.  The lines in front of the literal bind the fields
that it takes from variables. -/
lemma unitLines_split :
    ∃ early rest, unitLines a = outerLines a ++ constructorHead :: (early ++ buildHead ::
        (p.fieldInits.map (fun f => (Text.Line.plain f.text).words) ++ [] :: rest)) ∧
      (∀ line ∈ early, isBuild line = false) ∧
      early.filterMap letName = p.boundFields.map Field.name := by
  obtain ⟨resolved, late, hresolved, hsteps, -⟩ := steps_split h.source h.checked h.steps
  have hearly (step : Step) (hstep : step ∈ earlySteps p resolved) : step.Early :=
    (resolved_earlySteps h.source h.checked hresolved step hstep).1
  obtain ⟨rest, hlines⟩ := unitLines_eq hsteps
  refine ⟨_, rest, hlines, List.forall_mem_map.2 (List.forall_mem_flatMap.2 fun step hstep => ?_),
    ?_⟩
  · obtain ⟨line, hlayout, -, hbuild⟩ := (hearly step hstep).line
    rw [hlayout]
    exact List.forall_mem_singleton.2 hbuild
  · rw [lets_of_early hearly, bound_earlySteps hresolved]

lemma structFields_unitLines : structFields (unitLines a) = p.fields.map Field.name := by
  obtain ⟨early, rest, hlines, -, -⟩ := unitLines_split h
  simp only [outerLines, List.append_assoc, List.cons_append, List.nil_append] at hlines
  rw [structFields, hlines,
    between_eq (fun line hline => (inner_topLayout a line hline).isStruct) rfl
      (List.forall_mem_map.2 fun f _ => isEmpty_of_prefix (words_structField f)) rfl,
    filterMap_map_some fun f _ => head_of_prefix (words_structField f), h.fields]

/-- The constructor binds the fields that the literal takes from variables. -/
lemma constructorLets_unitLines :
    constructorLets (unitLines a) = p.boundFields.map Field.name := by
  obtain ⟨early, rest, hlines, hbuild, hlets⟩ := unitLines_split h
  rw [constructorLets, hlines,
    between_eq (fun line hline => (not_begun_of_outer a line hline).1) rfl hbuild rfl, hlets]

/-- The lines of the struct literal. -/
lemma literal_unitLines :
    between isBuild List.isEmpty (unitLines a) =
      p.fieldInits.map fun f => (Text.Line.plain f.text).words := by
  obtain ⟨early, rest, hlines, hbuild, -⟩ := unitLines_split h
  have hbefore : ∀ line ∈ outerLines a ++ constructorHead :: early, isBuild line = false :=
    List.forall_mem_append.2 ⟨fun line hline => (not_begun_of_outer a line hline).2,
      List.forall_mem_cons.2 ⟨by decide, hbuild⟩⟩
  -- seen from the literal, the lines of the constructor are lines in front of it
  rw [hlines, ← List.cons_append, ← List.append_assoc]
  exact between_eq hbefore rfl
    (List.forall_mem_map.2 fun f hf => isEmpty_of_prefix (words_fieldInit hf).1) rfl

lemma literalFields_unitLines : literalFields (unitLines a) = p.fields.map Field.name := by
  rw [literalFields, literal_unitLines h,
    filterMap_map_some fun f hf => head_of_prefix (words_fieldInit hf).1, ← map_field_fieldInits,
    List.map_map]
  rfl

lemma shorthandFields_unitLines :
    shorthandFields (unitLines a) = p.boundFields.map Field.name := by
  have hwords : (p.fieldInits.map fun f => (Text.Line.plain f.text).words).filterMap shorthand =
      p.fieldInits.filterMap fun f => if f.value = none then some f.field.name else none := by
    rw [List.filterMap_map]
    exact List.filterMap_congr fun f hf => (words_fieldInit hf).2
  rw [shorthandFields, literal_unitLines h, hwords, filterMap_unset]

end

/-! ### Declared references -/

lemma mem_declaredNames_of_line {a : Artifact} {line : Text.Line} {name : String}
    (hline : line ∈ a.layout {}) (hname : definedName line.words = some name) :
    name ∈ declaredNames (unitLines a) :=
  List.mem_append_right _ (List.mem_filterMap.2
    ⟨line.words, List.mem_append_left _ (List.mem_map_of_mem hline), hname⟩)

section

variable {p : Plan} {m : Module} {a : Artifact} (h : p.Makes m a)

include h

/-- Every reference that the module declares is a name that the unit declares. -/
lemma mem_declaredNames {r : Ref} (hr : m.Declares r) : r.name ∈ declaredNames (unitLines a) := by
  cases r with
  | field f =>
    refine List.mem_append_left _ (List.mem_append_left _ ?_)
    rw [structFields_unitLines h]
    exact List.mem_map_of_mem ((mem_fields h.source f).2 hr)
  | method func =>
    obtain ⟨method, hmethod, rfl⟩ := exists_method h.methods hr
    obtain ⟨line, hline, hname⟩ := definedName_method method
    have hmem : line ∈ a.methods.flatMap fun f => Text.Line.blank :: f.layout :=
      List.mem_flatMap.2 ⟨method, hmethod, List.mem_cons_of_mem _ hline⟩
    refine mem_declaredNames_of_line ?_ hname
    simp only [layout, List.mem_append, hmem, or_true, true_or]
  | handle func =>
    obtain ⟨handle, hhandle, rfl⟩ := exists_handle h.source h.handles hr
    obtain ⟨line, hline, hname⟩ := definedName_handle handle
    have hmem : line ∈ a.handles.flatMap Handle.layout :=
      List.mem_flatMap.2 ⟨handle, hhandle, hline⟩
    refine mem_declaredNames_of_line ?_ hname
    simp only [layout, List.mem_append, hmem, or_true, true_or]
  | type index =>
    have hlt : index < a.types.length := by
      rw [h.types]
      exact hr
    obtain ⟨line, hline, hname⟩ := definedName_type a.data hlt
    refine mem_declaredNames_of_line ?_ hname
    simp only [layout, List.mem_append, hline, or_true, true_or]
  | data segment =>
    have hlt : segment < a.data.length := by
      rw [h.data, List.length_map]
      exact hr
    obtain ⟨line, hline, hname⟩ := definedName_data a.types hlt
    refine mem_declaredNames_of_line ?_ hname
    simp only [layout, List.mem_append, hline, or_true, true_or]

end

section

variable {P : String → Prop}

lemma clean_preamble : ∀ line ∈ preamble {}, line.Clean P := by
  have hunused : (Text.Line.plain "#[allow(unused_imports)]").Clean P :=
    clean_literal (.literal rfl) nofun
  have hlibrary : (Text.Line.plain ("use " ++ "wasmlower_runtime" ++ "::*;")).Clean P :=
    clean_literal (IdleText.literal rfl |>.lit rfl |>.lit rfl) nofun
  refine List.forall_mem_cons.2 ⟨clean_comment rfl (by decide), List.forall_mem_cons.2
    ⟨clean_comment rfl (by decide), List.forall_mem_cons.2 ⟨clean_literal (.literal rfl) nofun,
      List.forall_mem_cons.2 ⟨hunused, List.forall_mem_cons.2 ⟨hlibrary, List.forall_mem_cons.2
        ⟨hunused, List.forall_mem_cons.2 ⟨clean_literal (.literal rfl) nofun, List.forall_mem_cons.2
          ⟨hunused, List.forall_mem_cons.2 ⟨clean_literal (.literal rfl) nofun,
            List.forall_mem_singleton.2 (clean_literal (.literal rfl) nofun)⟩⟩⟩⟩⟩⟩⟩⟩⟩

lemma clean_lookupsLayout {lookups : List Lookup}
    (h : ∀ l ∈ lookups, ∀ arm ∈ l.arms, P arm.2.ref.name) :
    ∀ line ∈ lookupsLayout lookups, line.Clean P := by
  refine List.forall_mem_append.2 ⟨List.forall_mem_append.2
    ⟨List.forall_mem_singleton.2 (clean_literal (.literal rfl) nofun), ?_⟩,
    List.forall_mem_singleton.2 (clean_literal (.literal rfl) nofun)⟩
  change ∀ line ∈ [Text.Line.blank].intercalate (lookups.map Lookup.layout), line.Clean P
  induction lookups with
  | nil => exact List.forall_mem_nil _
  | cons l lookups ih =>
    obtain ⟨hl, hlookups⟩ := List.forall_mem_cons.1 h
    cases lookups with
    | nil => simpa using Lookup.clean hl
    | cons l' lookups =>
      rw [List.map_cons, List.map_cons, List.intercalate_cons_cons]
      exact List.forall_mem_append.2 ⟨List.forall_mem_append.2 ⟨Lookup.clean hl,
        List.forall_mem_singleton.2 (clean_literal (.literal rfl) nofun)⟩, ih hlookups⟩

lemma clean_constructorLayout {steps : List Step}
    (h : ∀ step ∈ steps, ∀ line ∈ step.layout, line.Clean P) :
    ∀ line ∈ constructorLayout steps, line.Clean P := by
  refine List.forall_mem_append.2 ⟨List.forall_mem_append.2
    ⟨List.forall_mem_singleton.2 (clean_literal ?_ nofun), List.forall_mem_flatMap.2 h⟩,
    List.forall_mem_singleton.2 (clean_literal (.literal rfl) nofun)⟩
  exact (IdleText.literal rfl).lit rfl

end

section

variable {p : Plan} {m : Module} {a : Artifact} (h : p.Makes m a)

include h

/-- The lines of a unit cite no numbered names but those that the module declares, apart from the
methods for its exports where they begin. -/
lemma clean_layout {P : String → Prop} (hP : ∀ r, m.Declares r → P r.name) :
    ∀ line ∈ a.layout {}, line.Clean fun w => P w ∨ accessorName line.words = some w := by
  have hown {lines : List Text.Line} (hlines : ∀ line ∈ lines, line.Clean P) :
      ∀ line ∈ lines, line.Clean fun w => P w ∨ accessorName line.words = some w :=
    fun line hline => (hlines line hline).mono fun _ => .inl
  obtain ⟨_, _, -, -, hsteps⟩ := steps_split h.source h.checked h.steps
  have hentries := resolved_entries h.source h.exports h.entries
  refine List.forall_mem_append.2 ⟨List.forall_mem_append.2 ⟨List.forall_mem_append.2
    ⟨List.forall_mem_append.2 ⟨List.forall_mem_append.2 ⟨List.forall_mem_append.2
      ⟨List.forall_mem_append.2 ⟨List.forall_mem_append.2 ⟨List.forall_mem_append.2
        ⟨hown clean_preamble, hown ?constants⟩, hown ?struct⟩, hown ?impl⟩, hown ?constructor⟩,
          hown ?methods⟩, hown ?handles⟩, ?entries⟩, hown ?close⟩, hown ?lookups⟩
  case constants =>
    refine clean_constantsLayout (fun k hk => hP (.data k) ?_) (fun n hn => hP (.type n) ?_)
    · rwa [h.data, List.length_map] at hk
    · rwa [h.types] at hn
  case struct =>
    refine clean_structLayout fun f hf => hP (.field f) ?_
    rw [h.fields] at hf
    exact (mem_fields h.source f).1 hf
  case impl => exact List.forall_mem_singleton.2 (clean_literal (.literal rfl) nofun)
  case constructor =>
    refine clean_constructorLayout fun step hstep => Step.clean
      (fun r hr => hP r ((hsteps step hstep).refs r hr)) fun f hf value hvalue => ?_
    refine ((hsteps step hstep).inits f hf value hvalue).mono ?_
    rintro _ ⟨r, hr, rfl⟩
    exact hP r hr
  case methods =>
    refine List.forall_mem_flatMap.2 fun f hf =>
      List.forall_mem_cons.2 ⟨clean_literal (.literal rfl) nofun, ?_⟩
    -- the indices in a body were checked when it was lowered
    obtain ⟨position, -, hrun⟩ := exists_of_mapM h.methods hf
    have hbody := Lowering.resolved_of_lowerFunction hrun
    exact clean_method (hP _ (declares_method h.methods f hf)) fun line hline =>
      ⟨(hbody line hline).1, fun r hr => hP r ((hbody line hline).2 r hr)⟩
  case handles =>
    exact List.forall_mem_flatMap.2 fun handle hhandle => Handle.clean fun r hr =>
      hP r (declares_handles h.source h.handles handle hhandle r hr)
  case entries =>
    -- an export may have any name, also one like those of fields that there are not
    exact List.forall_mem_flatMap.2 fun e he =>
      Entry.clean (hentries e he).method (hP _ (hentries e he).body)
  case close =>
    exact List.forall_mem_cons.2 ⟨clean_literal (.literal rfl) nofun,
      List.forall_mem_singleton.2 (clean_literal (.literal rfl) nofun)⟩
  case lookups =>
    refine clean_lookupsLayout fun l hl arm harm => hP _ ?_
    rw [h.lookups] at hl
    exact declares_lookups h.source (fun e he => (h.exports e he).2) l hl arm harm

/-! ### Well-named units -/

lemma wellNamed_unitLines : WellNamed (unitLines a) := by
  have hclean := clean_layout h fun r hr => mem_declaredNames h hr
  refine ⟨?_, ?_, ?_, ?_⟩
  · refine List.forall_mem_append.2 ⟨List.forall_mem_map.2 ?_,
      List.forall_mem_singleton.2 (List.forall_mem_nil _)⟩
    intro line hline word hword hnumbered
    exact (hclean line hline).cited word hword (hasIndex_of_isNumbered hnumbered)
  · rw [structFields_unitLines h]
    exact (nodup_fields p).map Field.name_injective
  · rw [literalFields_unitLines h, structFields_unitLines h]
  · rw [shorthandFields_unitLines h, constructorLets_unitLines h]
    intro name hname
    exact List.count_eq_one_of_mem ((nodup_boundFields p).map Field.name_injective) hname

end

/-- The fields that the constructor makes before the instance: modules imported from, and items. -/
def IsLinked : Field → Prop
  | .provider _ | .func _ | .memory _ | .global _ | .table _ => True
  | .me | .data _ | .elem _ => False

lemma mem_boundFields {p : Plan} (f : Field) :
    f ∈ p.boundFields ↔ f ∈ p.fields ∧ IsLinked f := by
  cases f <;> simp [Plan.fields, Plan.boundFields, IsLinked, mem_importFields, IsImported]

/-- The names of a unit are in order, and the fields are those of the module. -/
theorem emitModule_wellNamed {platform : Platform} {m : Module} {text : String}
    (h : emitModule platform m {} = .ok text) :
    WellNamed (wordLines text) ∧
      (∀ f : Field, f.name ∈ structFields (wordLines text) ↔ m.Declares (.field f)) ∧
      ∀ f : Field, f.name ∈ shorthandFields (wordLines text) ↔
        m.Declares (.field f) ∧ IsLinked f := by
  obtain ⟨a, hmade, htext⟩ := of_bind_ok h
  cases htext
  obtain ⟨p, hp⟩ := exists_plan hmade
  have hclean := clean_layout hp fun r hr => mem_declaredNames hp hr
  have hlines : wordLines (a.text {}) = unitLines a :=
    wordLines_print 0 fun line hline => (hclean line hline).neat
  rw [hlines, structFields_unitLines hp, shorthandFields_unitLines hp]
  refine ⟨wellNamed_unitLines hp, fun f => ?_, fun f => ?_⟩
  · rw [List.mem_map_of_injective Field.name_injective, mem_fields hp.source]
  · rw [List.mem_map_of_injective Field.name_injective, mem_boundFields, mem_fields hp.source]

/-- A function that calls an import, sets a global and calls through a table. -/
def relay : FuncDef where
  type := 0
  locals := []
  body := [.localGet 0, .call 0, .globalSet 1, .i32Const 0, .globalGet 0, .callIndirect 0 0]

/-- A module with imports, items of every kind, segments, and an export named like a field. -/
def relayModule : Module where
  types := [{ params := [.i32], results := [.i32] }]
  imports := [⟨"env", "tick", .func 0⟩, ⟨"env", "base", .global ⟨.i32, false⟩⟩]
  functions := [relay]
  tables := [⟨.funcref, ⟨2, none⟩⟩]
  memories := [⟨1, none⟩]
  globals := [⟨⟨.i32, true⟩, .i32 0⟩, ⟨⟨.funcref, false⟩, .refFunc 1⟩]
  exports := [⟨"mem_3", .func, 1⟩, ⟨"type", .func, 0⟩, ⟨"7", .table, 0⟩]
  elements := [⟨.funcref, .active 0 (.i32 0), [.refFunc 0, .refFunc 1]⟩]
  data := [⟨.active 0 (.globalGet 0), [104, 105]⟩, ⟨.passive, [34]⟩]

theorem emitModule_wellNamed_relay :
    ∃ text, emitModule .release relayModule {} = .ok text ∧ WellNamed (wordLines text) ∧
      "data_1" ∈ structFields (wordLines text) ∧ "mem_3" ∉ structFields (wordLines text) ∧
        "global_2" ∈ shorthandFields (wordLines text) := by
  obtain ⟨method, hmethod⟩ : ∃ method, Lowering.lowerFunction relayModule 0 = .ok method := by
    have hok : (Lowering.lowerFunction relayModule 0).isOk = true := by decide +kernel
    cases hlower : Lowering.lowerFunction relayModule 0 with
    | error e =>
      rw [hlower] at hok
      cases hok
    | ok method => exact ⟨method, rfl⟩
  have hmethods : (List.range relayModule.functions.length).mapM
      (Lowering.lowerFunction relayModule) = .ok [method] := by
    change (do let first ← Lowering.lowerFunction relayModule 0; _) = _
    rw [hmethod]
    rfl
  obtain ⟨text, htext⟩ : ∃ text, emitModule .release relayModule {} = .ok text := by
    rw [emitModule, ofModule, hmethods]
    exact ⟨_, rfl⟩
  obtain ⟨hnamed, hfields, hshorthand⟩ := emitModule_wellNamed htext
  have hglobal : 2 < relayModule.count .global := by decide
  have hmemory : ¬ 3 < relayModule.count .memory := by decide
  exact ⟨text, htext, hnamed, (hfields (.data 1)).2 (by decide : 1 < relayModule.data.length),
    fun hmem => hmemory ((hfields (.memory 3)).1 hmem),
    (hshorthand (.global 2)).2 ⟨hglobal, trivial⟩⟩

end WasmAot.Artifact
