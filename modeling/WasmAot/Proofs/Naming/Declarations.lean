/-
# What a unit declares

The unit for a module declares a field for everything that its instances hold, two methods for each
of its functions, and a constant for each type and each data segment.  `Declares` says which of them
there are, by the counts of the module, and every check that the module has passed says that
something is declared.  The fields of the struct are exactly those, each of them once.
-/
import Mathlib.Data.List.Nodup
import WasmAot.Artifact.Basic
import WasmAot.Proofs.Naming.References

namespace WasmAot

open Code

namespace Module

/-- The unit for the module declares what is referred to. -/
def Declares (m : Module) : Ref → Prop
  | .field .me => True
  | .field (.provider n) => n < (Artifact.distinct (m.imports.map Import.moduleName)).length
  | .field (.func index) => index < m.importCount .func
  | .field (.memory index) => index < m.count .memory
  | .field (.global index) => index < m.count .global
  | .field (.table index) => index < m.count .table
  | .field (.data segment) | .data segment => segment < m.data.length
  | .field (.elem segment) => segment < m.elements.length
  | .method func | .handle func => m.importCount .func ≤ func ∧ func < m.count .func
  | .type index => index < m.types.length

/-! ### Checks -/

variable {m : Module}

lemma importCount_eq_countP (kind : ExternKind) :
    m.importCount kind = m.imports.countP fun item => item.desc.kind = kind := by
  have hfst : (m.imports.zipIdx.map Prod.fst) = m.imports := by simp
  rw [importCount, importsOf, List.length_map, ← List.countP_eq_length_filter]
  conv_rhs => rw [← hfst, List.countP_map]
  rfl

lemma length_globalTypes : m.globalTypes.length = m.count .global := by
  rw [globalTypes, List.length_append, List.length_map, count, importCount_eq_countP,
    List.length_filterMap_eq_countP]
  congr 1
  refine List.countP_congr fun item _ => ?_
  cases item.desc <;> simp [ImportDesc.kind]

lemma length_tableTypes : m.tableTypes.length = m.count .table := by
  rw [tableTypes, List.length_append, count, importCount_eq_countP,
    List.length_filterMap_eq_countP]
  congr 1
  refine List.countP_congr fun item _ => ?_
  cases item.desc <;> simp [ImportDesc.kind]

lemma declares_of_typeAt {index : Nat} {type : FuncType} (h : m.typeAt index = .ok type) :
    m.Declares (.type index) := by
  unfold typeAt at h
  split at h
  · rename_i htype
    exact (List.getElem?_eq_some_iff.1 htype).1
  · cases h

lemma declares_of_typeOfGlobal {index : Nat} {type : GlobalType}
    (h : m.typeOfGlobal index = .ok type) : m.Declares (.field (.global index)) := by
  unfold typeOfGlobal at h
  split at h
  · rename_i htype
    have hlt := (List.getElem?_eq_some_iff.1 htype).1
    rwa [length_globalTypes] at hlt
  · cases h

lemma declares_of_typeOfTable {index : Nat} {type : TableType}
    (h : m.typeOfTable index = .ok type) : m.Declares (.field (.table index)) := by
  unfold typeOfTable at h
  split at h
  · rename_i htype
    have hlt := (List.getElem?_eq_some_iff.1 htype).1
    rwa [length_tableTypes] at hlt
  · cases h

lemma declares_of_requireFuncTable {index : Nat} (h : m.requireFuncTable index = .ok ()) :
    m.Declares (.field (.table index)) := by
  cases htype : m.typeOfTable index with
  | ok type => exact declares_of_typeOfTable htype
  | error e =>
    rw [requireFuncTable, htype] at h
    cases h

lemma declares_of_requireMemory {index : Nat} (h : m.requireMemory index = .ok ()) :
    m.Declares (.field (.memory index)) := by
  unfold requireMemory at h
  split at h
  · assumption
  · cases h

lemma declares_of_requireElemSegment {segment : Nat} (h : m.requireElemSegment segment = .ok ()) :
    m.Declares (.field (.elem segment)) := by
  unfold requireElemSegment at h
  split at h
  · assumption
  · cases h

lemma declares_of_requireDataSegment {segment : Nat} (h : m.requireDataSegment segment = .ok ()) :
    m.Declares (.field (.data segment)) := by
  unfold requireDataSegment at h
  split at h
  · assumption
  · cases h

lemma declares_of_imported {func position : Nat} {item : Import}
    (h : m.funcAt func = .ok (.imported position item)) : m.Declares (.field (.func func)) := by
  unfold funcAt at h
  split at h
  · rename_i hitem
    exact (List.getElem?_eq_some_iff.1 hitem).1
  · dsimp only at h
    split at h <;> cases h

lemma declares_of_defined {func position : Nat} {f : FuncDef}
    (h : m.funcAt func = .ok (.defined position f)) : m.Declares (.method func) := by
  unfold funcAt at h
  split at h
  · cases h
  · rename_i hnone
    dsimp only at h
    split at h
    · rename_i hfunc
      have hle : m.importCount .func ≤ func := List.getElem?_eq_none_iff.1 hnone
      have hlt := (List.getElem?_eq_some_iff.1 hfunc).1
      refine ⟨hle, ?_⟩
      rw [count, numDefined]
      omega
    · cases h

end Module

/-! ### Fields -/

namespace Artifact

lemma itemField_inj {kind kind' : ExternKind} {index index' : Nat} :
    itemField kind index = itemField kind' index' ↔ kind = kind' ∧ index = index' := by
  cases kind <;> cases kind' <;> simp [itemField]

/-- The fields for imports, if some of each kind came before. -/
def fieldsFrom (seen : ExternKind → Nat) (imports : List Import) : List Field :=
  (imports.zip (Module.indicesOfImports.go seen imports)).map fun p => itemField p.1.desc.kind p.2

lemma fieldsFrom_cons (seen : ExternKind → Nat) (item : Import) (rest : List Import) :
    fieldsFrom seen (item :: rest) =
      itemField item.desc.kind (seen item.desc.kind) ::
        fieldsFrom (fun k => if k = item.desc.kind then seen k + 1 else seen k) rest := rfl

/-- Imports of a kind are numbered on from those that came before. -/
lemma mem_fieldsFrom {seen : ExternKind → Nat} {imports : List Import} {kind : ExternKind}
    {index : Nat} :
    itemField kind index ∈ fieldsFrom seen imports ↔
      seen kind ≤ index ∧ index < seen kind + imports.countP fun item => item.desc.kind = kind := by
  induction imports generalizing seen with
  | nil => simp [fieldsFrom]
  | cons item rest ih =>
    rw [fieldsFrom_cons, List.mem_cons, ih, itemField_inj, List.countP_cons]
    by_cases hkind : kind = item.desc.kind
    · subst hkind
      simp only [true_and, if_true, decide_true]
      omega
    · have hne : item.desc.kind ≠ kind := fun h => hkind h.symm
      simp [hkind, hne]

lemma exists_of_mem_fieldsFrom {seen : ExternKind → Nat} {imports : List Import} {f : Field}
    (h : f ∈ fieldsFrom seen imports) : ∃ kind index, f = itemField kind index := by
  obtain ⟨p, -, rfl⟩ := List.mem_map.1 h
  exact ⟨_, _, rfl⟩

lemma nodup_fieldsFrom (seen : ExternKind → Nat) (imports : List Import) :
    (fieldsFrom seen imports).Nodup := by
  induction imports generalizing seen with
  | nil => exact List.nodup_nil
  | cons item rest ih =>
    rw [fieldsFrom_cons, List.nodup_cons]
    refine ⟨fun hmem => ?_, ih _⟩
    have hle := (mem_fieldsFrom.1 hmem).1
    simp only [if_true] at hle
    omega

lemma map_snd_importFields (m : Module) :
    (importFields m).map Prod.snd = fieldsFrom (fun _ => 0) m.imports := by
  rw [importFields, List.map_map]
  rfl

/-- The field is for an import. -/
def IsImported (m : Module) : Field → Prop
  | .func index => index < m.importCount .func
  | .memory index => index < m.importCount .memory
  | .global index => index < m.importCount .global
  | .table index => index < m.importCount .table
  | .me | .provider _ | .data _ | .elem _ => False

lemma mem_importFields {m : Module} {f : Field} :
    f ∈ (importFields m).map Prod.snd ↔ IsImported m f := by
  have hitem (kind : ExternKind) (index : Nat) :
      itemField kind index ∈ (importFields m).map Prod.snd ↔ index < m.importCount kind := by
    rw [map_snd_importFields, mem_fieldsFrom, Nat.zero_add, ← Module.importCount_eq_countP]
    exact and_iff_right (Nat.zero_le _)
  have hother (hf : ∀ kind index, f ≠ itemField kind index) :
      f ∉ (importFields m).map Prod.snd := by
    rw [map_snd_importFields]
    intro hmem
    obtain ⟨kind, index, rfl⟩ := exists_of_mem_fieldsFrom hmem
    exact hf kind index rfl
  cases f with
  | func index => exact hitem .func index
  | memory index => exact hitem .memory index
  | global index => exact hitem .global index
  | table index => exact hitem .table index
  | me | provider _ | data _ | elem _ =>
    exact iff_of_false (hother fun kind index => by cases kind <;> nofun) id

lemma mem_definedIndices {m : Module} {kind : ExternKind} {index : Nat} :
    index ∈ m.definedIndices kind ↔ m.importCount kind ≤ index ∧ index < m.count kind := by
  simp only [Module.definedIndices, Module.count, List.mem_map, List.mem_range]
  constructor
  · rintro ⟨k, hk, rfl⟩
    omega
  · rintro ⟨hle, hlt⟩
    exact ⟨index - m.importCount kind, by omega, by omega⟩

lemma nodup_definedIndices (m : Module) (kind : ExternKind) : (m.definedIndices kind).Nodup :=
  List.nodup_range.map fun _ _ => Nat.add_left_cancel

/-- Fields of one form behind fields without them. -/
lemma nodup_append_map {before : List Field} (hbefore : before.Nodup) {l : List Nat} (hl : l.Nodup)
    {form : Nat → Field} (hform : Function.Injective form) (hnew : ∀ n ∈ l, form n ∉ before) :
    (before ++ l.map form).Nodup := by
  refine List.nodup_append.2 ⟨hbefore, hl.map hform, fun f hf g hg heq => ?_⟩
  obtain ⟨n, hn, rfl⟩ := List.mem_map.1 hg
  exact hnew n hn (heq ▸ hf)

/-- The plan has the providers that the module's imports name. -/
def Plan.For (p : Plan) (m : Module) : Prop :=
  p.source = m ∧ p.providers = distinct (m.imports.map Import.moduleName)

section

variable {p : Plan} {m : Module} (h : p.For m)

include h

/-- The struct has a field for everything that the unit declares as one. -/
lemma mem_fields (f : Field) : f ∈ p.fields ↔ m.Declares (.field f) := by
  obtain ⟨rfl, hproviders⟩ := h
  have hle (kind : ExternKind) : p.source.importCount kind ≤ p.source.count kind :=
    Nat.le_add_right _ _
  have hitem {kind : ExternKind} {index : Nat} :
      index < p.source.importCount kind ∨ index ∈ p.source.definedIndices kind ↔
        index < p.source.count kind := by
    have := hle kind
    rw [mem_definedIndices]
    omega
  unfold Plan.fields Plan.boundFields
  dsimp only
  cases f <;> simp only [List.mem_append, mem_importFields, IsImported, Module.Declares] <;>
    simp [hproviders, hitem]

omit h in
lemma nodup_boundFields (p : Plan) : p.boundFields.Nodup := by
  have hproviders : ((List.range p.providers.length).map Field.provider).Nodup :=
    List.nodup_range.map fun _ _ => Field.provider.inj
  have himported : ((importFields p.source).map Prod.snd).Nodup := by
    rw [map_snd_importFields]
    exact nodup_fieldsFrom _ _
  have hdefined (kind : ExternKind) := nodup_definedIndices p.source kind
  unfold Plan.boundFields
  dsimp only
  refine nodup_append_map (nodup_append_map (nodup_append_map ?_ (hdefined .memory)
    (fun _ _ => Field.memory.inj) ?_) (hdefined .global) (fun _ _ => Field.global.inj) ?_)
    (hdefined .table) (fun _ _ => Field.table.inj) ?_
  · refine List.nodup_append.2 ⟨hproviders, himported, fun f hf g hg heq => ?_⟩
    obtain ⟨n, -, rfl⟩ := List.mem_map.1 hf
    rw [← heq, mem_importFields] at hg
    exact hg
  -- what is defined has larger indices than what is imported
  all_goals
    intro index hindex
    rw [mem_definedIndices] at hindex
    simp only [List.mem_append, mem_importFields, IsImported]
    simp
    omega

omit h in
/-- No field of the struct is declared twice. -/
lemma nodup_fields (p : Plan) : p.fields.Nodup := by
  unfold Plan.fields
  refine nodup_append_map (nodup_append_map (List.nodup_cons.2 ⟨?_, nodup_boundFields p⟩)
    List.nodup_range (fun _ _ => Field.data.inj) ?_) List.nodup_range (fun _ _ => Field.elem.inj) ?_
  all_goals simp [Plan.boundFields, mem_importFields, IsImported]

end

end Artifact

/-- Different fields have different names. -/
lemma Code.Field.name_injective : Function.Injective Field.name := by
  intro f g h
  -- what stands in front of the number tells the kinds of fields apart
  have hchars := congrArg String.toList h
  cases f <;> cases g <;> simp [Field.name] at hchars ⊢
  all_goals exact Text.toDigits_injective hchars

end WasmAot
