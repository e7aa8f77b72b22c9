/-
# The index spaces of a module

Imports and the items of the module share an index space for each kind, and the numbering of it is
worked out in several places: an import is found by going through those of its kind, it is numbered
by counting while all imports are gone through, types are listed with those of the imports first,
and the items of the module are numbered on from the number of imports.  All of them agree.  An
index stands for the same item wherever it is used, and there is one exactly below the size of the
space.
-/
import WasmAot.Proofs.Lowering.Recursive
import WasmAot.Proofs.Naming.Declarations

namespace WasmAot

/-! ### Items picked from a list -/

/-- What is picked from a list at some place was picked from an element with as many others before
it that something is picked from. -/
lemma getElem?_filterMap_eq_some_iff {α β : Type} {f : α → Option β} {l : List α} {i : Nat}
    {b : β} :
    (l.filterMap f)[i]? = some b ↔
      ∃ p x, l[p]? = some x ∧ f x = some b ∧ (l.take p).countP (fun y => (f y).isSome) = i := by
  induction l generalizing i with
  | nil => simp
  | cons y l ih =>
    constructor
    · intro h
      cases hy : f y with
      | none =>
        rw [List.filterMap_cons_none hy] at h
        obtain ⟨p, x, hx, hb, hcount⟩ := ih.1 h
        exact ⟨p + 1, x, hx, hb, by simpa [hy] using hcount⟩
      | some c =>
        rw [List.filterMap_cons_some hy] at h
        cases i with
        | zero => exact ⟨0, y, rfl, hy.trans h, rfl⟩
        | succ i =>
          obtain ⟨p, x, hx, hb, hcount⟩ := ih.1 h
          exact ⟨p + 1, x, hx, hb, by simpa [hy] using hcount⟩
    · rintro ⟨p, x, hx, hb, rfl⟩
      cases p with
      | zero =>
        obtain rfl : y = x := Option.some.inj hx
        rw [List.filterMap_cons_some hb]
        rfl
      | succ p =>
        have hrest := ih.2 ⟨p, x, hx, hb, rfl⟩
        cases hy : f y with
        | none => simpa [List.filterMap_cons_none hy, hy] using hrest
        | some c => simpa [List.filterMap_cons_some hy, hy] using hrest

namespace Module

/-! ### Imports by their rank -/

/-- The import that stands at this position among all imports is of this kind, and as many of the
kind come before it. -/
structure ImportAt (m : Module) (kind : ExternKind) (rank position : Nat) (item : Import) :
    Prop where
  item_eq : m.imports[position]? = some item
  kind_eq : item.desc.kind = kind
  rank_eq : (m.imports.take position).countP (fun other => other.desc.kind = kind) = rank

variable {m : Module} {kind : ExternKind} {i p : Nat} {item : Import}

/-- Going through the imports of a kind finds them by their rank. -/
lemma getElem?_importsOf :
    (m.importsOf kind)[i]? = some (p, item) ↔ m.ImportAt kind i p item := by
  have hcount (n : Nat) : (m.imports.zipIdx.take n).countP (fun q => q.1.desc.kind = kind) =
      (m.imports.take n).countP fun other => other.desc.kind = kind := by
    conv_rhs => rw [← List.zipIdx_map_fst 0 m.imports, ← List.map_take, List.countP_map]
    rfl
  rw [importsOf, ← List.filterMap_eq_filter, List.map_filterMap, getElem?_filterMap_eq_some_iff]
  simp only [Option.isSome_map, Option.isSome_guard, hcount, List.getElem?_zipIdx, Nat.zero_add,
    Option.map_eq_some_iff, Option.guard_eq_some_iff, decide_eq_true_eq]
  constructor
  · rintro ⟨n, -, ⟨other, hother, rfl⟩, ⟨-, ⟨rfl, hkind⟩, heq⟩, hrank⟩
    obtain ⟨rfl, rfl⟩ := Prod.mk.inj heq
    exact ⟨hother, hkind, hrank⟩
  · rintro ⟨hitem, hkind, hrank⟩
    exact ⟨p, (item, p), ⟨item, hitem, rfl⟩, ⟨_, ⟨rfl, hkind⟩, rfl⟩, hrank⟩

/-- There is an import of each rank below their number. -/
lemma exists_importAt (h : i < m.importCount kind) : ∃ p item, m.ImportAt kind i p item :=
  ⟨_, _, getElem?_importsOf.1 (List.getElem?_eq_getElem h)⟩

lemma ImportAt.lt (h : m.ImportAt kind i p item) : i < m.importCount kind :=
  (List.getElem?_eq_some_iff.1 (getElem?_importsOf.2 h)).1

/-! ### The numbers that imports get -/

/-- The import that stands at this position gets this index. -/
structure Assigns (m : Module) (index position : Nat) (item : Import) : Prop where
  item_eq : m.imports[position]? = some item
  index_eq : m.indicesOfImports[position]? = some index

/-- With some of each kind seen, an import gets the number of those of its kind seen by then. -/
lemma getElem?_indicesFrom {seen : ExternKind → Nat} {imports : List Import}
    (h : imports[p]? = some item) :
    (indicesOfImports.go seen imports)[p]? = some (seen item.desc.kind +
      (imports.take p).countP fun other => other.desc.kind = item.desc.kind) := by
  induction imports generalizing seen p with
  | nil => cases h
  | cons first rest ih =>
    cases p with
    | zero =>
      obtain rfl : first = item := Option.some.inj h
      rfl
    | succ p =>
      rw [List.take_succ_cons, List.countP_cons]
      refine Eq.trans (ih h) ?_
      -- the first import adds to the count of its own kind, and to no other
      by_cases hkind : first.desc.kind = item.desc.kind
      · simp only [hkind, if_true, decide_true]
        congr 1
        omega
      · have hne : item.desc.kind ≠ first.desc.kind := fun heq => hkind heq.symm
        simp [hkind, hne]

example : indicesOfImports.go (fun _ => 0) [⟨"", "f", .func 0⟩, ⟨"", "a", .memory ⟨1, none⟩⟩,
    ⟨"", "g", .func 1⟩, ⟨"", "h", .func 0⟩, ⟨"", "b", .memory ⟨0, none⟩⟩] = [0, 0, 1, 2, 1] := by
  decide

/-- An import gets its rank among those of its kind. -/
lemma assigns_iff : m.Assigns i p item ↔ m.ImportAt item.desc.kind i p item := by
  constructor
  · rintro ⟨hitem, hindex⟩
    have hrank := hindex.symm.trans (getElem?_indicesFrom hitem)
    rw [Nat.zero_add] at hrank
    exact ⟨hitem, rfl, (Option.some.inj hrank).symm⟩
  · rintro ⟨hitem, -, hrank⟩
    refine ⟨hitem, (getElem?_indicesFrom hitem).trans ?_⟩
    rw [Nat.zero_add, hrank]

lemma importAt_iff : m.ImportAt kind i p item ↔ m.Assigns i p item ∧ item.desc.kind = kind := by
  rw [assigns_iff]
  constructor
  · intro h
    exact ⟨h.kind_eq ▸ h, h.kind_eq⟩
  · rintro ⟨h, rfl⟩
    exact h

/-- The items of the module are numbered on from the imports. -/
lemma getElem?_definedIndices {j : Nat} :
    (m.definedIndices kind)[j]? = some i ↔ j < m.numDefined kind ∧ i = m.importCount kind + j := by
  rw [definedIndices, List.getElem?_map, Option.map_eq_some_iff]
  constructor
  · rintro ⟨k, hk, rfl⟩
    obtain ⟨hlt, heq⟩ := List.getElem?_eq_some_iff.1 hk
    rw [List.length_range] at hlt
    rw [List.getElem_range] at heq
    exact ⟨hlt, heq ▸ rfl⟩
  · rintro ⟨hlt, rfl⟩
    exact ⟨j, List.getElem?_range hlt, rfl⟩

/-! ### Functions -/

/-- Wherever the number of imports is taken from an index, it is at most that index. -/
lemma importCount_le_of_none (h : (m.importsOf .func)[i]? = none) : m.importCount .func ≤ i :=
  List.getElem?_eq_none_iff.1 h

lemma funcAt_importAt (h : m.ImportAt .func i p item) : m.funcAt i = .ok (.imported p item) := by
  rw [funcAt, getElem?_importsOf.2 h]

lemma funcAt_own {func : FuncDef} {j : Nat} (h : m.functions[j]? = some func) :
    m.funcAt (m.importCount .func + j) = .ok (.defined j func) := by
  have hnone : (m.importsOf .func)[m.importCount .func + j]? = none :=
    List.getElem?_eq_none_iff.2 (Nat.le_add_right _ _)
  rw [funcAt, hnone]
  dsimp only
  rw [Nat.add_sub_cancel_left, h]

lemma funcAt_out (h : m.count .func ≤ i) : m.funcAt i = outOfRange .func i := by
  change m.importCount .func + m.functions.length ≤ i at h
  have hnone : (m.importsOf .func)[i]? = none :=
    List.getElem?_eq_none_iff.2 (Nat.le_trans (Nat.le_add_right _ _) h)
  have hbeyond : m.functions[i - m.importCount .func]? = none :=
    List.getElem?_eq_none_iff.2 (by omega)
  rw [funcAt, hnone]
  dsimp only
  rw [hbeyond]

/-- Only one index stands for an own function. -/
lemma eq_of_funcAt_own {func : FuncDef} {j : Nat} (h : m.funcAt i = .ok (.defined j func)) :
    i = m.importCount .func + j ∧ m.functions[j]? = some func := by
  rw [funcAt] at h
  split at h
  · cases h
  case h_2 hnone =>
    have hle := importCount_le_of_none hnone
    dsimp only at h
    split at h
    case h_1 own hown =>
      cases h
      exact ⟨by omega, hown⟩
    · cases h

/-! ### Types listed by index -/

/-- A list of what is picked from the imports of a kind and then of the module's own items has each
at the index of its import, or numbered on from the imports. -/
lemma getElem?_picked {β : Type} {pick : ImportDesc → Option β} {own : List β} {b : β}
    (hpick : ∀ desc, (pick desc).isSome = decide (desc.kind = kind)) :
    ((m.imports.filterMap fun item => pick item.desc) ++ own)[i]? = some b ↔
      (∃ p item, m.Assigns i p item ∧ pick item.desc = some b) ∨
        ∃ j, own[j]? = some b ∧ i = m.importCount kind + j := by
  have hlength : (m.imports.filterMap fun item => pick item.desc).length = m.importCount kind := by
    rw [List.length_filterMap_eq_countP, importCount_eq_countP]
    simp only [hpick]
  have himported : (m.imports.filterMap fun item => pick item.desc)[i]? = some b ↔
      ∃ p item, m.Assigns i p item ∧ pick item.desc = some b := by
    rw [getElem?_filterMap_eq_some_iff]
    simp only [hpick]
    constructor
    · rintro ⟨p, item, hitem, hb, hrank⟩
      have hkind : item.desc.kind = kind := by simpa [hb] using hpick item.desc
      exact ⟨p, item, (importAt_iff.1 ⟨hitem, hkind, hrank⟩).1, hb⟩
    · rintro ⟨p, item, hassigns, hb⟩
      have hkind : item.desc.kind = kind := by simpa [hb] using hpick item.desc
      obtain ⟨hitem, -, hrank⟩ := importAt_iff.2 ⟨hassigns, hkind⟩
      exact ⟨p, item, hitem, hb, hrank⟩
  by_cases hlt : i < m.importCount kind
  · rw [List.getElem?_append_left (hlength ▸ hlt), himported]
    refine ⟨Or.inl, ?_⟩
    rintro (h | ⟨j, -, rfl⟩)
    · exact h
    · omega
  · have hle : m.importCount kind ≤ i := Nat.le_of_not_lt hlt
    rw [List.getElem?_append_right (hlength ▸ hle), hlength]
    constructor
    · intro h
      exact .inr ⟨i - m.importCount kind, h, by omega⟩
    · rintro (h | ⟨j, hj, rfl⟩)
      · have hnot := (List.getElem?_eq_some_iff.1 (himported.2 h)).1
        omega
      · rwa [Nat.add_sub_cancel_left]

/-- The type of the global that is imported, if it is one. -/
def globalOf? : ImportDesc → Option GlobalType
  | .global type => some type
  | _ => none

/-- The type of the table that is imported, if it is one. -/
def tableOf? : ImportDesc → Option TableType
  | .table type => some type
  | _ => none

lemma typeOfGlobal_eq_ok_iff {type : GlobalType} :
    m.typeOfGlobal i = .ok type ↔
      (∃ p item, m.Assigns i p item ∧ item.desc = .global type) ∨
        ∃ j g, m.globals[j]? = some g ∧ g.type = type ∧ i = m.importCount .global + j := by
  have hkind (desc : ImportDesc) : (globalOf? desc).isSome = decide (desc.kind = .global) := by
    cases desc <;> rfl
  have hpick (desc : ImportDesc) : globalOf? desc = some type ↔ desc = .global type := by
    cases desc <;> simp [globalOf?]
  have hfound : m.typeOfGlobal i = .ok type ↔ m.globalTypes[i]? = some type := by
    rw [typeOfGlobal]
    cases m.globalTypes[i]? <;> simp [outOfRange]
  rw [hfound, globalTypes]
  refine (getElem?_picked hkind).trans (or_congr (by simp only [hpick]) ?_)
  simp only [List.getElem?_map, Option.map_eq_some_iff]
  constructor
  · rintro ⟨j, ⟨g, hg, rfl⟩, rfl⟩
    exact ⟨j, g, hg, rfl, rfl⟩
  · rintro ⟨j, g, hg, rfl, rfl⟩
    exact ⟨j, ⟨g, hg, rfl⟩, rfl⟩

lemma typeOfTable_eq_ok_iff {type : TableType} :
    m.typeOfTable i = .ok type ↔
      (∃ p item, m.Assigns i p item ∧ item.desc = .table type) ∨
        ∃ j, m.tables[j]? = some type ∧ i = m.importCount .table + j := by
  have hkind (desc : ImportDesc) : (tableOf? desc).isSome = decide (desc.kind = .table) := by
    cases desc <;> rfl
  have hpick (desc : ImportDesc) : tableOf? desc = some type ↔ desc = .table type := by
    cases desc <;> simp [tableOf?]
  have hfound : m.typeOfTable i = .ok type ↔ m.tableTypes[i]? = some type := by
    rw [typeOfTable]
    cases m.tableTypes[i]? <;> simp [outOfRange]
  rw [hfound, tableTypes]
  exact (getElem?_picked hkind).trans (or_congr (by simp only [hpick]) Iff.rfl)

/-- Below the size of an index space are the indices of imports and those of the module's own items,
and no others. -/
lemma lt_count_iff :
    i < m.count kind ↔
      (∃ p item, m.Assigns i p item ∧ item.desc.kind = kind) ∨
        ∃ j < m.numDefined kind, i = m.importCount kind + j := by
  constructor
  · intro h
    by_cases hlt : i < m.importCount kind
    · obtain ⟨p, item, hat⟩ := exists_importAt hlt
      exact .inl ⟨p, item, importAt_iff.1 hat⟩
    · rw [count] at h
      exact .inr ⟨i - m.importCount kind, by omega, by omega⟩
  · rw [count]
    rintro (⟨p, item, h⟩ | ⟨j, hj, rfl⟩)
    · exact Nat.lt_add_right _ (importAt_iff.2 h).lt
    · omega

lemma requireMemory_eq_ok_iff : m.requireMemory i = .ok () ↔ i < m.count .memory := by
  rw [requireMemory]
  by_cases h : i < m.count .memory <;> simp [h, outOfRange]

/-! ### Agreement -/

open Lowering in
/-- The ways to number the items of a module agree. -/
structure IndexSpacesAgree (m : Module) : Prop where
  /-- an import gets the number of imports of its kind before it -/
  import_index : ∀ p item, m.imports[p]? = some item → m.indicesOfImports[p]? =
    some ((m.imports.take p).countP fun other => other.desc.kind = item.desc.kind)
  /-- the module's own items are numbered on from the number of imports of the kind -/
  own_index : ∀ kind j i, (m.definedIndices kind)[j]? = some i ↔
    j < m.numDefined kind ∧ i = m.importCount kind + j
  /-- an index below the number of imported functions stands for the import of that rank, and this
  is the index which the import gets -/
  func_imported : ∀ i < m.importCount .func, ∃ p item, m.ImportAt .func i p item ∧
    m.funcAt i = .ok (.imported p item) ∧ m.indicesOfImports[p]? = some i
  /-- an index from there on stands for an own function, counted from there -/
  func_own : ∀ i, m.importCount .func ≤ i → i < m.count .func →
    ∃ func, m.functions[i - m.importCount .func]? = some func ∧
      m.funcAt i = .ok (.defined (i - m.importCount .func) func)
  /-- and there are no other functions -/
  func_out : ∀ i, m.count .func ≤ i →
    m.funcAt i = .error (.validation (.outOfRange .func i))
  /-- wherever no import is found, so that the number of imports is taken from the index, it is at
  most the index -/
  func_difference : ∀ i, (m.importsOf .func)[i]? = none → m.importCount .func ≤ i
  /-- a method is named by the one index that stands for the function it comes from -/
  method_index : ∀ l method, lowerFunction m l = .ok method →
    (∀ i, (∃ func, m.funcAt i = .ok (.defined l func)) ↔ i = method.index) ∧
      ∃ rest, method.layout[1]? = some (.opening (s!"fn fn_{method.index}(" ++ rest))
  /-- a global is found at the index of its import, or of its definition, and nowhere else -/
  global_found : ∀ i type, m.typeOfGlobal i = .ok type ↔
    (∃ p item, m.Assigns i p item ∧ item.desc = .global type) ∨
      ∃ j g, m.globals[j]? = some g ∧ g.type = type ∧ i = m.importCount .global + j
  global_range : ∀ i, (∃ type, m.typeOfGlobal i = .ok type) ↔ i < m.count .global
  /-- and so is a table -/
  table_found : ∀ i type, m.typeOfTable i = .ok type ↔
    (∃ p item, m.Assigns i p item ∧ item.desc = .table type) ∨
      ∃ j, m.tables[j]? = some type ∧ i = m.importCount .table + j
  table_range : ∀ i, (∃ type, m.typeOfTable i = .ok type) ↔ i < m.count .table
  /-- and a memory -/
  memory_found : ∀ i, m.requireMemory i = .ok () ↔
    (∃ p item, m.Assigns i p item ∧ item.desc.kind = .memory) ∨
      ∃ j < m.memories.length, i = m.importCount .memory + j
  memory_range : ∀ i, m.requireMemory i = .ok () ↔ i < m.count .memory

lemma exists_typeOfGlobal_iff : (∃ type, m.typeOfGlobal i = .ok type) ↔ i < m.count .global := by
  rw [← length_globalTypes, typeOfGlobal]
  by_cases h : i < m.globalTypes.length <;> simp [h, outOfRange]

lemma exists_typeOfTable_iff : (∃ type, m.typeOfTable i = .ok type) ↔ i < m.count .table := by
  rw [← length_tableTypes, typeOfTable]
  by_cases h : i < m.tableTypes.length <;> simp [h, outOfRange]

open Lowering in
/-- A method carries the index of the function it comes from. -/
lemma funcAt_method_iff {l : Nat} {method : Method} (h : lowerFunction m l = .ok method) :
    (∃ func, m.funcAt i = .ok (.defined l func)) ↔ i = method.index := by
  obtain ⟨func, type, b, hfunc, -, -, rfl⟩ := lowerFunction_eq_ok_iff.1 h
  constructor
  · rintro ⟨own, hown⟩
    exact (eq_of_funcAt_own hown).1
  · rintro rfl
    exact ⟨func, funcAt_own hfunc⟩

open Lowering in
/-- The head of a method begins with its index. -/
lemma exists_head_layout (method : Method) :
    ∃ rest, method.layout[1]? = some (.opening (s!"fn fn_{method.index}(" ++ rest)) := by
  have hself (text : String) : "(" ++ ("&self" ++ text) = "(&self" ++ text :=
    (String.append_assoc ..).symm
  refine ⟨"&self" ++ paramList "mut " method.type.params ++ ") -> " ++
    Code.returnType method.type.results ++ " \x7b", ?_⟩
  simp [Method.layout, String.append_assoc, hself]

theorem indexSpaces_agree (m : Module) : m.IndexSpacesAgree where
  import_index p item hitem := by
    rw [indicesOfImports, getElem?_indicesFrom hitem, Nat.zero_add]
  own_index kind j i := getElem?_definedIndices
  func_imported i hlt := by
    obtain ⟨p, item, hat⟩ := exists_importAt hlt
    exact ⟨p, item, hat, funcAt_importAt hat, (importAt_iff.1 hat).1.index_eq⟩
  func_own i hle hlt := by
    have hown : i - m.importCount .func < m.functions.length := by
      change i < m.importCount .func + m.functions.length at hlt
      omega
    have hfunc := List.getElem?_eq_getElem hown
    refine ⟨_, hfunc, ?_⟩
    have hfound := funcAt_own hfunc
    rwa [Nat.add_sub_of_le hle] at hfound
  func_out i hle := funcAt_out hle
  func_difference i hnone := importCount_le_of_none hnone
  method_index l method hmethod := ⟨fun i => funcAt_method_iff hmethod, exists_head_layout method⟩
  global_found i type := typeOfGlobal_eq_ok_iff
  global_range i := exists_typeOfGlobal_iff
  table_found i type := typeOfTable_eq_ok_iff
  table_range i := exists_typeOfTable_iff
  memory_found i := requireMemory_eq_ok_iff.trans lt_count_iff
  memory_range i := requireMemory_eq_ok_iff

end Module

end WasmAot
