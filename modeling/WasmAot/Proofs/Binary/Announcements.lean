/-
# Sections that announce what others bring

The function section lists the types of the functions whose bodies the code section brings, and the
data count section gives the number of the segments that the data section brings.  Each pair is
compared at one place only: when the second section is read, with what was announced until then.
This file says what is known of a file in which the sections stand in any order.  The announcements
hold if they come first.  If they come last, the functions are lost and the number is anything.
-/
import WasmAot.Proofs.Binary.SectionOrder

namespace WasmAot.Binary

open Stateful

/-! ### What one section does -/

section

variable {s : RawSection} {d d' : Draft}

/-- A section changes the draft in the part that it is about. -/
lemma eq_adopt_of_alone {kind : SectionId} (hid : SectionId.ofByte? s.id = some kind)
    (h : s.alone d = some d') : d' = d.adopt kind d' := by
  have hrun := alone_adopt hid d d
  rw [adopt_self, h] at hrun
  exact Option.some.inj hrun

lemma run_of_alone {kind : SectionId} (hid : SectionId.ofByte? s.id = some kind)
    (h : s.alone d = some d') :
    scanSection kind ⟨Cursor.start s.body, d⟩ = .ok () ⟨⟨s.body.length, []⟩, d'⟩ := by
  have hrun := (alone_eq_some_iff hid).1 h 0 []
  rwa [List.append_nil, Nat.zero_add] at hrun

/-- The types that a function section lists. -/
def RawSection.types (s : RawSection) : List Nat :=
  match vector u32 (Cursor.start s.body) with
  | .ok types _ => types
  | .error _ _ => []

/-- The segments of a data section. -/
def RawSection.segments (s : RawSection) : List DataSegment :=
  match vector dataSegment (Cursor.start s.body) with
  | .ok segments _ => segments
  | .error _ _ => []

lemma alone_function (hid : s.id = 3) (h : s.alone d = some d') :
    d' = { d with declared := s.types } := by
  have hkind : SectionId.ofByte? s.id = some .function := by rw [hid]; rfl
  have hrun := run_of_alone hkind h
  obtain ⟨types, t, hitem, hrun⟩ := of_bind_run_ok hrun
  obtain ⟨c, htypes, rfl⟩ := of_scanItem_run hitem
  cases hrun
  rw [RawSection.types, htypes]

/-- A body has the type that it was read for. -/
lemma type_of_funcBody {type : Nat} {c c' : Cursor} {func : FuncDef}
    (h : funcBody type c = .ok func c') : func.type = type := by
  obtain ⟨size, c₁, -, hbody⟩ := of_bind_run_ok h
  obtain ⟨hbody, -⟩ := run_of_exactlyOn hbody
  obtain ⟨locals, c₂, -, hbody⟩ := of_bind_run_ok hbody
  obtain ⟨body, c₃, -, hbody⟩ := of_bind_run_ok hbody
  cases hbody
  rfl

/-- The functions that a code section adds have the types that were declared. -/
lemma exists_of_scanBodies {types : List Nat} {c : Cursor} {t : ScanState}
    (h : scanBodies types ⟨c, d⟩ = .ok () t) :
    ∃ functions : List FuncDef, functions.map FuncDef.type = types ∧
      t.draft = { d with built := { d.built with functions := d.built.functions ++ functions } } := by
  induction types generalizing c d with
  | nil =>
    cases h
    exact ⟨[], rfl, by simp⟩
  | cons type types ih =>
    obtain ⟨func, t₁, hitem, h⟩ := of_bind_run_ok h
    obtain ⟨c₁, hfunc, rfl⟩ := of_scanItem_run hitem
    obtain ⟨⟨⟩, t₂, hextend, h⟩ := of_bind_run_ok h
    cases hextend
    obtain ⟨functions, htypes, hdraft⟩ := ih h
    refine ⟨func :: functions, ?_, ?_⟩
    · rw [List.map_cons, type_of_funcBody hfunc, htypes]
    · simpa using hdraft

/-- The number in front of the bodies is that of the functions. -/
lemma exists_of_scanCode {c : Cursor} {t : ScanState} (h : scanCode ⟨c, d⟩ = .ok () t) :
    ∃ (functions : List FuncDef) (c' : Cursor), u32 c = .ok functions.length c' ∧
      functions.map FuncDef.type = d.declared ∧
      t.draft = { d with
        built := { d.built with functions := d.built.functions ++ functions }
        codeSeen := true } := by
  obtain ⟨offset, t₁, hitem, hrun⟩ := of_bind_run_ok h
  obtain ⟨c₁, hoffset, rfl⟩ := of_scanItem_run hitem
  cases hoffset
  obtain ⟨count, t₂, hitem, hrun⟩ := of_bind_run_ok hrun
  obtain ⟨c₂, hcount, rfl⟩ := of_scanItem_run hitem
  rw [bind_run_ok (get_run _)] at hrun
  split at hrun
  case isFalse => cases hrun
  case isTrue hlength =>
    obtain ⟨⟨⟩, ⟨c₃, d₁⟩, hbodies, hrun⟩ := of_bind_run_ok hrun
    obtain ⟨functions, htypes, rfl⟩ := exists_of_scanBodies hbodies
    cases hrun
    rw [hlength, ← htypes, List.length_map] at hcount
    exact ⟨functions, c₂, hcount, htypes, rfl⟩

lemma alone_code (hid : s.id = 10) (h : s.alone d = some d') :
    ∃ functions : List FuncDef, functions.map FuncDef.type = d.declared ∧
      d' = { d with
        built := { d.built with functions := d.built.functions ++ functions }
        codeSeen := true } := by
  have hkind : SectionId.ofByte? s.id = some .code := by rw [hid]; rfl
  obtain ⟨functions, -, -, hcode⟩ := exists_of_scanCode (run_of_alone hkind h)
  exact ⟨functions, hcode⟩

/-- The segments are added if their number is the one that was announced. -/
lemma exists_of_scanData {c : Cursor} {t : ScanState} (h : scanData ⟨c, d⟩ = .ok () t) :
    ∃ segments c', vector dataSegment c = .ok segments c' ∧
      (∀ count ∈ d.built.dataCount, count = segments.length) ∧
      t.draft = { d with built := { d.built with data := d.built.data ++ segments } } := by
  obtain ⟨segments, t₁, hitem, hrun⟩ := of_bind_run_ok h
  obtain ⟨c₁, hsegments, rfl⟩ := of_scanItem_run hitem
  refine ⟨segments, c₁, hsegments, ?_⟩
  rw [bind_run_ok (get_run _)] at hrun
  cases hannounced : d.built.dataCount with
  | none =>
    rw [hannounced] at hrun
    cases hrun
    exact ⟨nofun, rfl⟩
  | some expected =>
    rw [hannounced] at hrun
    dsimp only at hrun
    split at hrun
    case isTrue hcount =>
      cases hrun
      exact ⟨by simpa using hcount, rfl⟩
    case isFalse => cases hrun

lemma alone_data (hid : s.id = 11) (h : s.alone d = some d') :
    (∀ count ∈ d.built.dataCount, count = s.segments.length) ∧
      d' = { d with built := { d.built with data := d.built.data ++ s.segments } } := by
  have hkind : SectionId.ofByte? s.id = some .data := by rw [hid]; rfl
  obtain ⟨segments, c', hsegments, hdata⟩ := exists_of_scanData (run_of_alone hkind h)
  have hread : s.segments = segments := by rw [RawSection.segments, hsegments]
  rwa [hread]

lemma alone_dataCount (hid : s.id = 12) (h : s.alone d = some d') :
    ∃ count, Spells 32 s.body count ∧
      d' = { d with built := { d.built with dataCount := some count } } := by
  have hkind : SectionId.ofByte? s.id = some .dataCount := by rw [hid]; rfl
  have hrun := run_of_alone hkind h
  obtain ⟨count, t, hitem, hrun⟩ := of_bind_run_ok hrun
  obtain ⟨c, hcount, rfl⟩ := of_scanItem_run hitem
  cases hrun
  obtain ⟨used, rest, hbody, hcursor, hread⟩ := agrees_u32 hcount
  simp only [Cursor.mk.injEq] at hcursor
  obtain ⟨-, rfl⟩ := hcursor
  rw [List.append_nil] at hbody
  exact ⟨count, reads_u32_iff.1 (hbody ▸ hread), rfl⟩

lemma alone_of_spells (hid : s.id = 12) {count : Nat} (h : Spells 32 s.body count) (d : Draft) :
    s.alone d = some { d with built := { d.built with dataCount := some count } } := by
  have hkind : SectionId.ofByte? s.id = some .dataCount := by rw [hid]; rfl
  exact (alone_eq_some_iff hkind).2 ((Scans.item (reads_u32_iff.2 h)).finish (scans_extend _ d))

/-- A section of another part neither sees nor changes this part. -/
lemma alone_adopt_other {kind : SectionId} (hother : orderKey s.id ≠ kind.part.byte) (d e : Draft) :
    s.alone (d.adopt kind e) = (s.alone d).map fun d' => d'.adopt kind e := by
  cases hid : SectionId.ofByte? s.id with
  | none => rw [alone_of_unsupported hid, alone_of_unsupported hid, Option.map_some]
  | some own =>
    have hpart : own.part ≠ kind.part := by
      intro heq
      rw [eq_byte_of_ofByte? hid, orderKey_byte, heq] at hother
      exact hother rfl
    have hrun := alone_adopt hid (d.adopt kind e) d
    rw [← adopt_comm hpart, adopt_self] at hrun
    rw [hrun]
    cases halone : s.alone d with
    | none => rfl
    | some d' =>
      rw [Option.map_some, Option.map_some, ← adopt_comm hpart, ← eq_adopt_of_alone hid halone]

lemma eq_adopt_of_other {kind : SectionId} (hother : orderKey s.id ≠ kind.part.byte)
    (h : s.alone d = some d') : d' = d'.adopt kind d := by
  have hrun := alone_adopt_other hother d d
  rw [adopt_self, h] at hrun
  exact Option.some.inj hrun

/-- Sections of other parts neither see nor change this part. -/
lemma foldlM_adopt_other {kind : SectionId} {xs : List RawSection}
    (hother : ∀ s ∈ xs, orderKey s.id ≠ kind.part.byte) (d e : Draft) :
    xs.foldlM RawSection.alone (d.adopt kind e) =
      (xs.foldlM RawSection.alone d).map fun d' => d'.adopt kind e := by
  induction xs generalizing d with
  | nil => rfl
  | cons s xs ih =>
    obtain ⟨hs, hxs⟩ := List.forall_mem_cons.1 hother
    rw [List.foldlM_cons, List.foldlM_cons, alone_adopt_other hs]
    cases s.alone d with
    | none => rfl
    | some d₁ => exact ih hxs d₁

lemma eq_adopt_of_run {kind : SectionId} {xs : List RawSection}
    (hother : ∀ s ∈ xs, orderKey s.id ≠ kind.part.byte)
    (h : xs.foldlM RawSection.alone d = some d') : d' = d'.adopt kind d := by
  have hrun := foldlM_adopt_other hother d d
  rw [adopt_self, h] at hrun
  exact Option.some.inj hrun

end

/-! ### The sections of a file -/

/-- The file is a header and these sections. -/
structure ConsistsOf (bytes : List UInt8) (sections : List RawSection) : Prop where
  bytes_eq : bytes = fileBytes sections
  framed : ∀ s ∈ sections, s.Framed

lemma exists_consistsOf {bytes : List UInt8} {m : Module} (h : decode bytes = .ok m) :
    ∃ sections, ConsistsOf bytes sections := by
  obtain ⟨sections, hbytes, hframed, -⟩ := framed_of_decode h
  exact ⟨sections, hbytes, hframed⟩

lemma ConsistsOf.run_of_decode {bytes : List UInt8} {sections : List RawSection}
    (hsections : ConsistsOf bytes sections) {m : Module} (h : decode bytes = .ok m) :
    ∃ d, sections.foldlM RawSection.alone {} = some d ∧ d.complete = .ok m := by
  obtain ⟨xs, rfl, hxs, hrun⟩ := framed_of_decode h
  rwa [eq_of_flatMap_bytes hxs hsections.framed (List.append_cancel_left hsections.bytes_eq)] at hrun

lemma complete_eq_ok_iff {d : Draft} {m : Module} :
    d.complete = .ok m ↔ (d.declared = [] ∨ d.codeSeen) ∧ d.built = m := by
  rw [Draft.complete]
  split <;> simp_all

/-! ### Functions -/

/-- Without a function section, what is declared stays declared, and each code section brings a
function of each of the declared types. -/
lemma functions_of_run {xs : List RawSection} (hxs : ∀ s ∈ xs, s.id ≠ 3) {d d' : Draft}
    (h : xs.foldlM RawSection.alone d = some d') :
    d'.declared = d.declared ∧ d'.codeSeen = (d.codeSeen || xs.any (·.id = 10)) ∧
      d'.built.functions.map FuncDef.type = d.built.functions.map FuncDef.type ++
        (List.replicate (xs.countP (·.id = 10)) d.declared).flatten := by
  induction xs generalizing d with
  | nil =>
    cases h
    simp
  | cons s xs ih =>
    obtain ⟨hs, hxs⟩ := List.forall_mem_cons.1 hxs
    obtain ⟨d₁, halone, hrest⟩ := Option.bind_eq_some_iff.1 h
    obtain ⟨hdeclared, hseen, htypes⟩ := ih hxs hrest
    by_cases hcode : s.id = 10
    · obtain ⟨functions, hfunctions, rfl⟩ := alone_code hcode halone
      refine ⟨hdeclared, ?_, ?_⟩
      · simp [hseen, hcode]
      · simp [htypes, hcode, hfunctions, List.replicate_succ]
    -- every other section leaves the functions as they are
    · have hother : orderKey s.id ≠ SectionId.function.part.byte := fun hkey =>
        (orderKey_eq_three.1 hkey).elim hs hcode
      rw [eq_adopt_of_other hother halone] at hdeclared hseen htypes
      refine ⟨hdeclared, ?_, ?_⟩
      · simpa [hcode, Draft.adopt] using hseen
      · simpa [hcode, Draft.adopt] using htypes

/-- With one function section, the code sections after it bring the functions that it declares. -/
lemma functions_of_run_split {before after : List RawSection} {f : RawSection} {d : Draft}
    (hbefore : ∀ s ∈ before, s.id ≠ 3) (hid : f.id = 3) (hafter : ∀ s ∈ after, s.id ≠ 3)
    (h : (before ++ f :: after).foldlM RawSection.alone {} = some d) :
    d.declared = f.types ∧ d.codeSeen = (before.any (·.id = 10) || after.any (·.id = 10)) ∧
      d.built.functions.map FuncDef.type =
        (List.replicate (after.countP (·.id = 10)) f.types).flatten := by
  rw [List.foldlM_append] at h
  obtain ⟨d₁, hrun₁, h⟩ := Option.bind_eq_some_iff.1 h
  obtain ⟨d₂, hf, hrun₂⟩ := Option.bind_eq_some_iff.1 h
  obtain ⟨-, hseen₁, htypes₁⟩ := functions_of_run hbefore hrun₁
  obtain rfl := alone_function hid hf
  obtain ⟨hdeclared, hseen, htypes⟩ := functions_of_run hafter hrun₂
  refine ⟨hdeclared, ?_, ?_⟩
  · simp [hseen, hseen₁]
  · simp [htypes, htypes₁]

/-- The types of the functions that a file declares. -/
def declaredTypes (sections : List RawSection) : List Nat :=
  (sections.filter (·.id = 3)).flatMap RawSection.types

/-- No code section stands before a function section that declares something. -/
def DeclaredFirst (sections : List RawSection) : Prop :=
  sections.Pairwise fun s t => s.id = 10 → t.id = 3 → t.types = []

section

variable {before after : List RawSection} {f : RawSection}

lemma declaredTypes_eq_nil (h : ∀ s ∈ before, s.id ≠ 3) : declaredTypes before = [] := by
  rw [declaredTypes, List.filter_eq_nil_iff.2 (by simpa using h), List.flatMap_nil]

lemma declaredFirst_of_ne (h : ∀ s ∈ before, s.id ≠ 3) : DeclaredFirst before :=
  List.pairwise_of_forall_mem_list fun _ _ t ht _ hid => absurd hid (h t ht)

lemma declaredTypes_split (hbefore : ∀ s ∈ before, s.id ≠ 3) (hafter : ∀ s ∈ after, s.id ≠ 3)
    (hid : f.id = 3) : declaredTypes (before ++ f :: after) = f.types := by
  have hsplit : declaredTypes (before ++ f :: after) =
      declaredTypes before ++ (f.types ++ declaredTypes after) := by
    simp [declaredTypes, hid]
  rw [hsplit, declaredTypes_eq_nil hbefore, declaredTypes_eq_nil hafter, List.nil_append,
    List.append_nil]

lemma declaredFirst_split (hbefore : ∀ s ∈ before, s.id ≠ 3) (hafter : ∀ s ∈ after, s.id ≠ 3)
    (hid : f.id = 3) :
    DeclaredFirst (before ++ f :: after) ↔ (∃ s ∈ before, s.id = 10) → f.types = [] := by
  rw [DeclaredFirst, List.pairwise_append, List.pairwise_cons]
  constructor
  · rintro ⟨-, -, hcross⟩ ⟨s, hs, hcode⟩
    exact hcross s hs f List.mem_cons_self hcode hid
  · intro hfirst
    refine ⟨declaredFirst_of_ne hbefore, ⟨fun t ht _ h => absurd h (hafter t ht),
      declaredFirst_of_ne hafter⟩, fun s hs t ht hcode h => ?_⟩
    rcases List.mem_cons.1 ht with rfl | ht
    · exact hfirst ⟨s, hs, hcode⟩
    · exact absurd h (hafter t ht)

end

/-- A section that is the only one with its id parts the others in two. -/
lemma split_of_countP_le_one {id : UInt8} {sections : List RawSection}
    (hcount : sections.countP (·.id = id) ≤ 1) (hmem : ∃ s ∈ sections, s.id = id) :
    ∃ before s after, sections = before ++ s :: after ∧ s.id = id ∧ (∀ t ∈ before, t.id ≠ id) ∧
      ∀ t ∈ after, t.id ≠ id := by
  obtain ⟨s, hs, hid⟩ := hmem
  obtain ⟨before, after, rfl⟩ := List.append_of_mem hs
  rw [List.countP_append, List.countP_cons_of_pos (by simpa using hid)] at hcount
  have hbefore : before.countP (·.id = id) = 0 := by omega
  have hafter : after.countP (·.id = id) = 0 := by omega
  exact ⟨before, s, after, rfl, hid, by simpa using hbefore, by simpa using hafter⟩

/-- The functions of a module are those that its file declares, as long as they are declared before
the bodies come.  This can only go wrong with bodies that come first: then there have to be none of
them, and the functions that are declared later are left out. -/
theorem decode_functions_iff {bytes : List UInt8} {m : Module} (h : decode bytes = .ok m) :
    (∃ sections, ConsistsOf bytes sections) ∧
    ∀ sections, ConsistsOf bytes sections → sections.countP (·.id = 3) ≤ 1 →
      sections.countP (·.id = 10) ≤ 1 →
        (m.functions.map FuncDef.type = declaredTypes sections ↔ DeclaredFirst sections) ∧
        (¬ DeclaredFirst sections → m.functions = []) := by
  refine ⟨exists_consistsOf h, fun sections hsections hfunction hcode => ?_⟩
  obtain ⟨d, hrun, hcomplete⟩ := hsections.run_of_decode h
  obtain ⟨hbodies, rfl⟩ := complete_eq_ok_iff.1 hcomplete
  by_cases hmem : ∃ s ∈ sections, s.id = 3
  · obtain ⟨before, f, after, rfl, hid, hbefore, hafter⟩ := split_of_countP_le_one hfunction hmem
    obtain ⟨hdeclared, hseen, htypes⟩ := functions_of_run_split hbefore hid hafter hrun
    have hbodies : f.types = [] ∨ (∃ s ∈ before, s.id = 10) ∨ ∃ s ∈ after, s.id = 10 := by
      simpa [hdeclared, hseen] using hbodies
    rw [List.countP_append, List.countP_cons_of_neg (by simp [hid])] at hcode
    rw [declaredTypes_split hbefore hafter hid, declaredFirst_split hbefore hafter hid, htypes]
    by_cases hearly : ∃ s ∈ before, s.id = 10
    · -- the one code section is over when the functions are declared
      have hpos : 0 < before.countP (·.id = 10) := List.countP_pos_iff.2 (by simpa using hearly)
      have hnone : after.countP (·.id = 10) = 0 := by omega
      rw [hnone, List.replicate_zero, List.flatten_nil] at htypes ⊢
      refine ⟨?_, fun _ => List.map_eq_nil_iff.1 htypes⟩
      rw [forall_prop_of_true hearly, eq_comm]
    · refine ⟨iff_of_true ?_ fun h => absurd h hearly, fun h => absurd (fun h => absurd h hearly) h⟩
      by_cases hlate : ∃ s ∈ after, s.id = 10
      · have hpos : 0 < after.countP (·.id = 10) := List.countP_pos_iff.2 (by simpa using hlate)
        have hone : after.countP (·.id = 10) = 1 := by omega
        simp [hone]
      · have hnil : f.types = [] := hbodies.resolve_right (not_or.2 ⟨hearly, hlate⟩)
        simp [hnil]
  · have hnone : ∀ s ∈ sections, s.id ≠ 3 := by simpa using hmem
    obtain ⟨-, -, htypes⟩ := functions_of_run hnone hrun
    have hfirst := declaredFirst_of_ne hnone
    rw [htypes, declaredTypes_eq_nil hnone]
    exact ⟨by simp [hfirst], absurd hfirst⟩

lemma consistsOf_small : ConsistsOf (fileBytes smallSections) smallSections :=
  ⟨rfl, framed_small⟩

theorem decode_functions_iff_small :
    decode (fileBytes smallSections) = .ok small ∧ DeclaredFirst smallSections ∧
      small.functions.map FuncDef.type = declaredTypes smallSections := by
  have hfirst : DeclaredFirst smallSections := by
    simp [DeclaredFirst, smallSections]
  obtain ⟨hiff, -⟩ :=
    (decode_functions_iff decode_small).2 smallSections consistsOf_small (by decide) (by decide)
  exact ⟨decode_small, hfirst, hiff.2 hfirst⟩

/-- A code section without bodies, and after it a function section that declares a function. -/
def bodiesFirst : List RawSection :=
  [⟨10, [1], [0x00]⟩, ⟨3, [2], [0x01, 0x00]⟩]

/-- A declared function may be dropped: it is enough that there was a code section before. -/
theorem declared_function_dropped :
    ¬ ∀ (bytes : List UInt8) (m : Module) (sections : List RawSection), decode bytes = .ok m →
      ConsistsOf bytes sections → sections.countP (·.id = 3) ≤ 1 →
        sections.countP (·.id = 10) ≤ 1 →
          m.functions.map FuncDef.type = declaredTypes sections := by
  intro h
  have hframed : ∀ s ∈ bodiesFirst, s.Framed := by
    simp only [bodiesFirst, List.forall_mem_cons]
    refine ⟨?_, ?_, List.forall_mem_nil _⟩ <;> exact ⟨rfl, by decide, rfl, by decide⟩
  have hdecode : decode (fileBytes bodiesFirst) = .ok {} := by
    rw [decode_fileBytes hframed rfl]
    rfl
  have htypes : declaredTypes bodiesFirst = [0] := rfl
  have hdropped := h _ _ bodiesFirst hdecode ⟨rfl, hframed⟩ (by decide) (by decide)
  rw [htypes] at hdropped
  cases hdropped

/-! ### Data segments -/

section

variable {xs : List RawSection} {d d' : Draft}

/-- Without a data section, the segments stay as they are. -/
lemma data_of_run (hxs : ∀ s ∈ xs, s.id ≠ 11) (h : xs.foldlM RawSection.alone d = some d') :
    d'.built.data = d.built.data := by
  induction xs generalizing d with
  | nil =>
    cases h
    rfl
  | cons s xs ih =>
    obtain ⟨hs, hxs⟩ := List.forall_mem_cons.1 hxs
    obtain ⟨d₁, halone, hrest⟩ := Option.bind_eq_some_iff.1 h
    rw [ih hxs hrest]
    by_cases hcount : s.id = 12
    · obtain ⟨count, -, rfl⟩ := alone_dataCount hcount halone
      rfl
    · have hother : orderKey s.id ≠ SectionId.data.part.byte := fun hkey =>
        (orderKey_eq_eleven.1 hkey).elim hs hcount
      rw [eq_adopt_of_other hother halone]
      rfl

/-- A data section finds as many segments as were announced before it. -/
lemma dataCount_of_data {before after : List RawSection} {t : RawSection} {count : Nat}
    (hbefore : ∀ s ∈ before, orderKey s.id ≠ SectionId.data.part.byte) (hid : t.id = 11)
    (hafter : ∀ s ∈ after, orderKey s.id ≠ SectionId.data.part.byte)
    (h : (before ++ t :: after).foldlM RawSection.alone d = some d')
    (hcount : d.built.dataCount = some count) (hdata : d.built.data = []) :
    d'.built.dataCount = some d'.built.data.length := by
  rw [List.foldlM_append] at h
  obtain ⟨d₁, hrun₁, h⟩ := Option.bind_eq_some_iff.1 h
  obtain ⟨d₂, ht, hrun₂⟩ := Option.bind_eq_some_iff.1 h
  obtain ⟨hchecked, rfl⟩ := alone_data hid ht
  have hsame := eq_adopt_of_run hbefore hrun₁
  have hcount₁ : d₁.built.dataCount = some count := by rw [hsame]; exact hcount
  have hdata₁ : d₁.built.data = [] := by rw [hsame]; exact hdata
  rw [eq_adopt_of_run hafter hrun₂]
  show d₁.built.dataCount = some (d₁.built.data ++ t.segments).length
  rw [hdata₁, List.nil_append, hcount₁, hchecked count hcount₁]

lemma orderKey_ne_data (hdata : ∀ s ∈ xs, s.id ≠ 11) (hcount : ∀ s ∈ xs, s.id ≠ 12) :
    ∀ s ∈ xs, orderKey s.id ≠ SectionId.data.part.byte := fun s hs hkey =>
  (orderKey_eq_eleven.1 hkey).elim (hdata s hs) (hcount s hs)

/-- The one data section finds as many segments as were announced last, if it comes after that. -/
lemma dataCount_of_run {before after : List RawSection} {s : RawSection} (hs : s.id = 12)
    (hlast : ∀ t ∈ after, t.id ≠ 12) (hdata : (before ++ s :: after).countP (·.id = 11) ≤ 1)
    (hlater : ∃ t ∈ after, t.id = 11)
    (h : (before ++ s :: after).foldlM RawSection.alone {} = some d) :
    d.built.dataCount = some d.built.data.length := by
  rw [List.countP_append, List.countP_cons_of_neg (by simp [hs])] at hdata
  have hpos : 0 < after.countP (·.id = 11) := List.countP_pos_iff.2 (by simpa using hlater)
  have hbefore : before.countP (·.id = 11) = 0 := by omega
  obtain ⟨xs, t, ys, rfl, ht, hxs, hys⟩ := split_of_countP_le_one (by omega) hlater
  obtain ⟨hlast₁, hlast⟩ := List.forall_mem_append.1 hlast
  obtain ⟨-, hlast₂⟩ := List.forall_mem_cons.1 hlast
  rw [List.foldlM_append] at h
  obtain ⟨d₁, hrun₁, h⟩ := Option.bind_eq_some_iff.1 h
  obtain ⟨d₂, halone, hrun₂⟩ := Option.bind_eq_some_iff.1 h
  obtain ⟨count, -, rfl⟩ := alone_dataCount hs halone
  exact dataCount_of_data (orderKey_ne_data hxs hlast₁) ht (orderKey_ne_data hys hlast₂) hrun₂ rfl
    (data_of_run (by simpa using hbefore) hrun₁)

/-- A data count section that has no data section after it can be given any number. -/
lemma foldlM_recount {before after : List RawSection} {s t : RawSection} {count : Nat}
    (hs : s.id = 12) (ht : t.id = 12) (hspells : Spells 32 t.body count)
    (hafter : ∀ s ∈ after, orderKey s.id ≠ SectionId.data.part.byte)
    (h : (before ++ s :: after).foldlM RawSection.alone d = some d') :
    (before ++ t :: after).foldlM RawSection.alone d =
      some { d' with built := { d'.built with dataCount := some count } } := by
  rw [List.foldlM_append] at h ⊢
  obtain ⟨d₁, hrun₁, h⟩ := Option.bind_eq_some_iff.1 h
  obtain ⟨d₂, halone, hrun₂⟩ := Option.bind_eq_some_iff.1 h
  obtain ⟨announced, -, rfl⟩ := alone_dataCount hs halone
  rw [hrun₁]
  show (t :: after).foldlM RawSection.alone d₁ = _
  rw [List.foldlM_cons, alone_of_spells ht hspells]
  -- none of the sections behind it looks at the number
  have hrest := foldlM_adopt_other hafter
    { d₁ with built := { d₁.built with dataCount := some announced } }
    { d₁ with built := { d₁.built with dataCount := some count } }
  rw [hrun₂] at hrest
  have hdata : d'.built.data = d₁.built.data := by rw [eq_adopt_of_run hafter hrun₂]; rfl
  refine hrest.trans (congrArg some ?_)
  simp only [Draft.adopt, hdata]

end

/-- The last section with an id parts the others in two. -/
lemma split_last {id : UInt8} {sections : List RawSection} (hmem : ∃ s ∈ sections, s.id = id) :
    ∃ before s after, sections = before ++ s :: after ∧ s.id = id ∧ ∀ t ∈ after, t.id ≠ id := by
  induction sections with
  | nil => simp at hmem
  | cons x xs ih =>
    by_cases hlater : ∃ s ∈ xs, s.id = id
    · obtain ⟨before, s, after, rfl, hs, hafter⟩ := ih hlater
      exact ⟨x :: before, s, after, rfl, hs, hafter⟩
    · have hxs : ∀ t ∈ xs, t.id ≠ id := by simpa using hlater
      refine ⟨[], x, xs, rfl, ?_, hxs⟩
      obtain ⟨s, hs, hid⟩ := hmem
      rcases List.mem_cons.1 hs with rfl | hs
      · exact hid
      · exact absurd hid (hxs s hs)

/-- There is a data section, and no data count section stands after it. -/
def CountedFirst (sections : List RawSection) : Prop :=
  (∃ s ∈ sections, s.id = 11) ∧ sections.Pairwise fun s t => s.id = 11 → t.id ≠ 12

lemma countedFirst_split {before after : List RawSection} {s : RawSection} (hs : s.id = 12)
    (hlast : ∀ t ∈ after, t.id ≠ 12) (hdata : (before ++ s :: after).countP (·.id = 11) ≤ 1) :
    CountedFirst (before ++ s :: after) ↔ ∃ t ∈ after, t.id = 11 := by
  rw [CountedFirst, List.pairwise_append, List.pairwise_cons]
  constructor
  · rintro ⟨⟨t, ht, hid⟩, -, -, hcross⟩
    rcases List.mem_append.1 ht with ht | ht
    · exact absurd hs (hcross t ht s List.mem_cons_self hid)
    · rcases List.mem_cons.1 ht with rfl | ht
      · rw [hs] at hid
        exact absurd hid (by decide)
      · exact ⟨t, ht, hid⟩
  · rintro ⟨t, ht, hid⟩
    -- the one data section stands behind the number, so there is none in front of it
    rw [List.countP_append, List.countP_cons_of_neg (by simp [hs])] at hdata
    have hpos : 0 < after.countP (·.id = 11) := List.countP_pos_iff.2 ⟨t, ht, by simpa using hid⟩
    have hzero : before.countP (·.id = 11) = 0 := by omega
    have hbefore : ∀ t ∈ before, t.id ≠ 11 := by simpa using hzero
    refine ⟨⟨t, by simp [ht], hid⟩, ?_, ⟨?_, ?_⟩, ?_⟩
    · exact List.pairwise_of_forall_mem_list fun a ha _ _ h => absurd h (hbefore a ha)
    · exact fun a ha _ => hlast a ha
    · exact List.pairwise_of_forall_mem_list fun _ _ b hb _ => hlast b hb
    · exact fun a ha _ _ h => absurd h (hbefore a ha)

/-- If a file gives the number of its data segments, and the data section comes after this, then the
module has this number of segments.  Otherwise the number is not compared with anything: the file is
accepted with any other number in its place. -/
theorem decode_dataCount {bytes : List UInt8} {m : Module} (h : decode bytes = .ok m) :
    (∃ sections, ConsistsOf bytes sections) ∧
    ∀ sections, ConsistsOf bytes sections → (∃ s ∈ sections, s.id = 12) →
      sections.countP (·.id = 11) ≤ 1 →
        (CountedFirst sections → m.dataCount = some m.data.length) ∧
        (¬ CountedFirst sections → ∃ before s after, sections = before ++ s :: after ∧ s.id = 12 ∧
          ∀ (t : RawSection) (count : Nat), t.id = 12 → t.Framed → Spells 32 t.body count →
            decode (fileBytes (before ++ t :: after)) = .ok { m with dataCount := some count }) := by
  refine ⟨exists_consistsOf h, fun sections hsections hmem hdata => ?_⟩
  obtain ⟨d, hrun, hcomplete⟩ := hsections.run_of_decode h
  obtain ⟨hbodies, rfl⟩ := complete_eq_ok_iff.1 hcomplete
  obtain ⟨before, s, after, rfl, hs, hlast⟩ := split_last hmem
  rw [countedFirst_split hs hlast hdata]
  refine ⟨fun hlater => dataCount_of_run hs hlast hdata hlater hrun, fun hnone => ?_⟩
  refine ⟨before, s, after, rfl, hs, fun t count ht hframed hcount => ?_⟩
  have hafter := orderKey_ne_data (by simpa using hnone) hlast
  have hall : ∀ x ∈ before ++ t :: after, x.Framed := by
    have hsame := hsections.framed
    simp only [List.forall_mem_append, List.forall_mem_cons] at hsame ⊢
    exact ⟨hsame.1, hframed, hsame.2.2⟩
  rw [decode_fileBytes hall (foldlM_recount hs ht hcount hafter hrun), complete_eq_ok_iff]
  exact ⟨hbodies, rfl⟩

theorem decode_dataCount_small :
    decode (fileBytes smallSections) = .ok small ∧ CountedFirst smallSections ∧
      small.dataCount = some small.data.length := by
  have hfirst : CountedFirst smallSections := by simp [CountedFirst, smallSections]
  obtain ⟨hcount, -⟩ :=
    (decode_dataCount decode_small).2 smallSections consistsOf_small (by decide) (by decide)
  exact ⟨decode_small, hfirst, hcount hfirst⟩

/-- A number of data segments, and no data. -/
def countAlone : List RawSection :=
  [⟨12, [1], [0x05]⟩]

/-- The number of data segments need not be right: it is enough that there is no data section. -/
theorem dataCount_wrong :
    ¬ ∀ (bytes : List UInt8) (m : Module) (sections : List RawSection), decode bytes = .ok m →
      ConsistsOf bytes sections → (∃ s ∈ sections, s.id = 12) → sections.countP (·.id = 11) ≤ 1 →
        ∀ n, m.dataCount = some n → m.data.length = n := by
  intro h
  have hframed : ∀ s ∈ countAlone, s.Framed := by
    simp only [countAlone, List.forall_mem_cons]
    exact ⟨⟨rfl, by decide, rfl, by decide⟩, List.forall_mem_nil _⟩
  have hdecode : decode (fileBytes countAlone) = .ok { dataCount := some 5 } := by
    rw [decode_fileBytes hframed rfl]
    rfl
  have hwrong := h _ _ countAlone hdecode ⟨rfl, hframed⟩ (by decide) (by decide) 5 rfl
  cases hwrong

end WasmAot.Binary
