/-
# The order of sections

What a section does to the draft concerns one part of it only, and other parts make no difference to
it.  The signatures of the functions and their bodies share a part, and so do the data segments and
their number.  Hence sections of different parts can change places, and the module that a file is
decoded as depends only on the order of the sections within each part.  Sections without a meaning
can stand anywhere.
-/
import WasmAot.Proofs.Binary.Isolation

namespace WasmAot.Binary

open Stateful

/-! ### The parts of a draft -/

/-- The part of the draft that a section is about, named after one of its sections. -/
def SectionId.part : SectionId → SectionId
  | .code => .function
  | .dataCount => .data
  | kind => kind

/-- The draft `d`, with the part that the section is about as in `e`. -/
def Draft.adopt (kind : SectionId) (d e : Draft) : Draft :=
  match kind with
  | .type => { d with built := { d.built with types := e.built.types } }
  | .imports => { d with built := { d.built with imports := e.built.imports } }
  | .function | .code =>
    { d with
      built := { d.built with functions := e.built.functions }
      declared := e.declared
      codeSeen := e.codeSeen }
  | .table => { d with built := { d.built with tables := e.built.tables } }
  | .memory => { d with built := { d.built with memories := e.built.memories } }
  | .global => { d with built := { d.built with globals := e.built.globals } }
  | .exports => { d with built := { d.built with exports := e.built.exports } }
  | .start => { d with built := { d.built with start := e.built.start } }
  | .element => { d with built := { d.built with elements := e.built.elements } }
  | .data | .dataCount =>
    { d with built := { d.built with data := e.built.data, dataCount := e.built.dataCount } }

lemma adopt_self (kind : SectionId) (d : Draft) : d.adopt kind d = d := by
  cases kind <;> rfl

lemma adopt_comm {kind kind' : SectionId} (h : kind.part ≠ kind'.part) (d e e' : Draft) :
    (d.adopt kind e).adopt kind' e' = (d.adopt kind' e').adopt kind e := by
  cases kind <;> cases kind' <;> simp_all [Draft.adopt, SectionId.part]

/-! ### Scanners act on a part -/

/-- The scanner sees and changes only one part of the draft: with the rest taken from another draft,
it does the same to this part and leaves the rest alone. -/
def ActsOn {α : Type} (kind : SectionId) (scan : Scanner α) : Prop :=
  ∀ (c : Cursor) (d e : Draft), scan ⟨c, d.adopt kind e⟩ =
    match scan ⟨c, e⟩ with
    | .ok a ⟨c', e'⟩ => .ok a ⟨c', d.adopt kind e'⟩
    | .error x ⟨c', e'⟩ => .error x ⟨c', d.adopt kind e'⟩

namespace ActsOn

variable {α β : Type} {kind : SectionId} {scan : Scanner α} {f : α → Scanner β}

protected lemma bind (h : ActsOn kind scan) (hf : ∀ a, ActsOn kind (f a)) :
    ActsOn kind (scan >>= f) := by
  intro c d e
  rw [bind_run, bind_run, h]
  cases scan ⟨c, e⟩ with
  | ok a s => exact hf a s.cursor d s.draft
  | error x s => rfl

lemma item (decoder : Decoder α) : ActsOn kind (scanItem decoder) := by
  intro c d e
  simp only [scanItem]
  cases decoder c <;> rfl

lemma get_bind {f : ScanState → Scanner β}
    (hsame : ∀ (c : Cursor) (d e : Draft), f ⟨c, d.adopt kind e⟩ = f ⟨c, e⟩)
    (hf : ∀ s, ActsOn kind (f s)) :
    ActsOn kind (get >>= f) := by
  intro c d e
  rw [bind_run_ok (get_run _), bind_run_ok (get_run _), hsame]
  exact hf _ c d e

lemma parseFault (offset : Nat) (fault : ParseFault) :
    ActsOn kind (parseFault offset fault : Scanner α) :=
  fun _ _ _ => rfl

end ActsOn

lemma actsOn_bodies (types : List Nat) : ActsOn .code (scanBodies types) := by
  induction types with
  | nil => exact fun _ _ _ => rfl
  | cons type types ih =>
    exact (ActsOn.item _).bind fun func => ActsOn.bind (fun _ _ _ => rfl) fun _ => ih

/-- Each section acts on its part of the draft. -/
lemma actsOn_section (kind : SectionId) : ActsOn kind (scanSection kind) := by
  cases kind with
  | code =>
    refine (ActsOn.item _).bind fun offset => (ActsOn.item _).bind fun count =>
      .get_bind (fun _ _ _ => rfl) fun s => ?_
    dsimp only
    split
    · exact (actsOn_bodies _).bind fun _ => fun _ _ _ => rfl
    · exact .parseFault _ _
  | data =>
    refine (ActsOn.item _).bind fun segments => .get_bind (fun _ _ _ => rfl) fun s => ?_
    split
    · exact fun _ _ _ => rfl
    · split
      · exact fun _ _ _ => rfl
      · exact (ActsOn.item _).bind fun offset => .parseFault _ _
  | _ => exact (ActsOn.item _).bind fun items => fun _ _ _ => rfl

lemma alone_adopt {s : RawSection} {kind : SectionId} (hid : SectionId.ofByte? s.id = some kind)
    (d e : Draft) : s.alone (d.adopt kind e) = (s.alone e).map (d.adopt kind) := by
  rw [RawSection.alone, RawSection.alone, hid]
  dsimp only
  rw [actsOn_section kind]
  cases scanSection kind ⟨Cursor.start s.body, e⟩ with
  | error x t => rfl
  | ok a t =>
    dsimp only
    split <;> rfl

/-! ### Sections of different parts change places -/

/-- What acts on one part sees nothing of what was done to another part. -/
lemma run_after_other {f g : Draft → Option Draft} {kind kind' : SectionId}
    (hpart : kind.part ≠ kind'.part)
    (hf : ∀ d e : Draft, f (d.adopt kind e) = (f e).map (d.adopt kind))
    (hg : ∀ d e : Draft, g (d.adopt kind' e) = (g e).map (d.adopt kind')) {d d₁ : Draft}
    (h : f d = some d₁) : d₁ = d.adopt kind d₁ ∧ g d₁ = (g d).map (d₁.adopt kind') := by
  have hown : d₁ = d.adopt kind d₁ := by
    have hrun := hf d d
    rw [adopt_self, h] at hrun
    exact Option.some.inj hrun
  have hother : d₁.adopt kind' d = d₁ := by
    rw [hown, adopt_comm hpart, adopt_self]
  refine ⟨hown, ?_⟩
  have hrun := hg d₁ d
  rwa [hother] at hrun

lemma bind_comm_of_adopt {f g : Draft → Option Draft} {kind kind' : SectionId}
    (hpart : kind.part ≠ kind'.part)
    (hf : ∀ d e : Draft, f (d.adopt kind e) = (f e).map (d.adopt kind))
    (hg : ∀ d e : Draft, g (d.adopt kind' e) = (g e).map (d.adopt kind')) (d : Draft) :
    (f d).bind g = (g d).bind f := by
  cases hfd : f d with
  | none =>
    cases hgd : g d with
    | none => rfl
    | some d₂ =>
      -- a section that fails here also fails behind the other one
      obtain ⟨-, hafter⟩ := run_after_other hpart.symm hg hf hgd
      rw [Option.bind_none, Option.bind_some, hafter, hfd, Option.map_none]
  | some d₁ =>
    obtain ⟨hd₁, hgafter⟩ := run_after_other hpart hf hg hfd
    cases hgd : g d with
    | none => rw [Option.bind_some, hgafter, hgd, Option.map_none, Option.bind_none]
    | some d₂ =>
      obtain ⟨hd₂, hfafter⟩ := run_after_other hpart.symm hg hf hgd
      -- in both orders each of the two parts is as its own section left it
      have hcomm : d₁.adopt kind' d₂ = d₂.adopt kind d₁ := by
        rw [hd₁, adopt_comm hpart, ← hd₂, ← hd₁]
      rw [Option.bind_some, Option.bind_some, hgafter, hgd, hfafter, hfd, Option.map_some,
        Option.map_some, hcomm]

/-- The id, with the ids of sections that are about the same part made equal. -/
def orderKey (id : UInt8) : UInt8 :=
  if id = 10 then 3 else if id = 12 then 11 else id

/-- The byte that stands for the section. -/
def SectionId.byte : SectionId → UInt8
  | .type => 1
  | .imports => 2
  | .function => 3
  | .table => 4
  | .memory => 5
  | .global => 6
  | .exports => 7
  | .start => 8
  | .element => 9
  | .code => 10
  | .data => 11
  | .dataCount => 12

lemma eq_byte_of_ofByte? {id : UInt8} {kind : SectionId} (h : SectionId.ofByte? id = some kind) :
    id = kind.byte := by
  rw [← UInt8.toNat_inj]
  rw [SectionId.ofByte?] at h
  split at h
  case h_13 => cases h
  all_goals
    cases h
    assumption

lemma SectionId.ofByte?_eq_none {id : UInt8} (h : id = 0 ∨ 12 < id) : ofByte? id = none := by
  cases hid : ofByte? id with
  | none => rfl
  | some kind =>
    have hbyte := eq_byte_of_ofByte? hid
    subst hbyte
    cases kind <;> exact absurd h (by decide)

lemma orderKey_byte (kind : SectionId) : orderKey kind.byte = kind.part.byte := by
  cases kind <;> rfl

lemma alone_comm {s t : RawSection} (h : orderKey s.id ≠ orderKey t.id) (d : Draft) :
    (s.alone d).bind t.alone = (t.alone d).bind s.alone := by
  cases hs : SectionId.ofByte? s.id with
  | none => simp only [alone_of_unsupported hs, Option.bind_some, Option.bind_fun_some]
  | some kind =>
    cases ht : SectionId.ofByte? t.id with
    | none => simp only [alone_of_unsupported ht, Option.bind_some, Option.bind_fun_some]
    | some kind' =>
      have hpart : kind.part ≠ kind'.part := by
        intro heq
        rw [eq_byte_of_ofByte? hs, eq_byte_of_ofByte? ht, orderKey_byte, orderKey_byte, heq] at h
        exact h rfl
      exact @bind_comm_of_adopt s.alone t.alone kind kind' hpart (alone_adopt hs) (alone_adopt ht) d

/-! ### Runs of sections -/

/-- A section moves to the front of sections of other parts. -/
lemma foldlM_front {a : RawSection} {xs ys : List RawSection}
    (h : ∀ x ∈ xs, orderKey x.id ≠ orderKey a.id) (d : Draft) :
    (xs ++ a :: ys).foldlM RawSection.alone d = (a :: (xs ++ ys)).foldlM RawSection.alone d := by
  induction xs generalizing d with
  | nil => rfl
  | cons x xs ih =>
    have hrest := ih fun y hy => h y (List.mem_cons_of_mem x hy)
    calc (x :: (xs ++ a :: ys)).foldlM RawSection.alone d
        = (x.alone d).bind fun e => (a.alone e).bind fun e' =>
            (xs ++ ys).foldlM RawSection.alone e' := by
          simp only [List.foldlM_cons, hrest]
          rfl
      _ = ((x.alone d).bind a.alone).bind fun e => (xs ++ ys).foldlM RawSection.alone e :=
          (Option.bind_assoc ..).symm
      _ = ((a.alone d).bind x.alone).bind fun e => (xs ++ ys).foldlM RawSection.alone e := by
          rw [alone_comm (h x List.mem_cons_self)]
      _ = (a :: x :: (xs ++ ys)).foldlM RawSection.alone d := Option.bind_assoc ..

/-- If the sections of each part are in the same order, the outcome is the same. -/
lemma foldlM_alone_congr {xs ys : List RawSection}
    (h : ∀ key, xs.filter (orderKey ·.id = key) = ys.filter (orderKey ·.id = key)) (d : Draft) :
    xs.foldlM RawSection.alone d = ys.foldlM RawSection.alone d := by
  induction xs generalizing ys d with
  | nil =>
    cases ys with
    | nil => rfl
    | cons y ys => exact absurd (h (orderKey y.id)) (by simp)
  | cons a xs ih =>
    -- the first section stands in the other list behind sections of other parts only
    have hfirst := h (orderKey a.id)
    rw [List.filter_cons_of_pos (by simp), eq_comm, List.filter_eq_cons_iff] at hfirst
    obtain ⟨before, after, rfl, hbefore, -, hafter⟩ := hfirst
    have hother : ∀ x ∈ before, orderKey x.id ≠ orderKey a.id := by simpa using hbefore
    rw [foldlM_front hother, List.foldlM_cons, List.foldlM_cons]
    congr 1
    funext e
    refine ih (fun key => ?_) e
    by_cases hkey : orderKey a.id = key
    · have hnone : before.filter (orderKey ·.id = orderKey a.id) = [] :=
        List.filter_eq_nil_iff.2 hbefore
      rw [← hkey, List.filter_append, hafter, hnone, List.nil_append]
    · have hrest := h key
      simp only [List.filter_append] at hrest ⊢
      rwa [List.filter_cons_of_neg (by simpa using hkey),
        List.filter_cons_of_neg (by simpa using hkey)] at hrest

/-! ### Rearranging a file -/

/-- The same sections in an order that keeps the sequence of those with equal ids, of those with the
ids 3 and 10, and of those with the ids 11 and 12. -/
structure Reordered (xs ys : List RawSection) : Prop where
  perm : xs.Perm ys
  equalIds : ∀ x ∈ xs, xs.filter (·.id = x.id) = ys.filter (·.id = x.id)
  functions : xs.filter (fun x => x.id = 3 ∨ x.id = 10) = ys.filter (fun x => x.id = 3 ∨ x.id = 10)
  data : xs.filter (fun x => x.id = 11 ∨ x.id = 12) = ys.filter (fun x => x.id = 11 ∨ x.id = 12)

/-- A step of rearranging: a section without a meaning comes in somewhere, or sections change
places. -/
inductive Rearranged : List RawSection → List RawSection → Prop
  | insert (before after : List RawSection) {s : RawSection} (hid : s.id = 0 ∨ 12 < s.id)
      (hframed : s.Framed) : Rearranged (before ++ after) (before ++ s :: after)
  | reorder {xs ys : List RawSection} (h : Reordered xs ys) : Rearranged xs ys

section

variable {id id' : UInt8}

lemma orderKey_eq_three : orderKey id = 3 ↔ id = 3 ∨ id = 10 := by
  grind [orderKey]

lemma orderKey_eq_eleven : orderKey id = 11 ↔ id = 11 ∨ id = 12 := by
  grind [orderKey]

lemma orderKey_eq_orderKey (h : ¬ (id' = 3 ∨ id' = 10)) (h' : ¬ (id' = 11 ∨ id' = 12)) :
    orderKey id = orderKey id' ↔ id = id' := by
  grind [orderKey]

end

lemma Reordered.filter_orderKey {xs ys : List RawSection} (h : Reordered xs ys) (key : UInt8) :
    xs.filter (orderKey ·.id = key) = ys.filter (orderKey ·.id = key) := by
  by_cases hmem : ∃ x ∈ xs, orderKey x.id = key
  · obtain ⟨x, hx, rfl⟩ := hmem
    by_cases hfunctions : x.id = 3 ∨ x.id = 10
    · simp only [orderKey_eq_three.2 hfunctions, orderKey_eq_three, h.functions]
    · by_cases hdata : x.id = 11 ∨ x.id = 12
      · simp only [orderKey_eq_eleven.2 hdata, orderKey_eq_eleven, h.data]
      · simp only [orderKey_eq_orderKey hfunctions hdata, h.equalIds x hx]
  · have hnone : ∀ zs : List RawSection, (∀ z ∈ zs, z ∈ xs) →
        zs.filter (orderKey ·.id = key) = [] := by
      intro zs hzs
      rw [List.filter_eq_nil_iff]
      intro z hz hkey
      exact hmem ⟨z, hzs z hz, by simpa using hkey⟩
    rw [hnone xs fun _ => id, hnone ys fun _ => h.perm.mem_iff.2]

/-- Rearranging keeps the sizes right, and the outcome. -/
lemma Rearranged.keeps {xs ys : List RawSection} (h : Rearranged xs ys) :
    ((∀ s ∈ xs, s.Framed) → ∀ s ∈ ys, s.Framed) ∧
      ∀ d, ys.foldlM RawSection.alone d = xs.foldlM RawSection.alone d := by
  cases h with
  | insert before after hid hframed =>
    rename_i s
    refine ⟨fun hall t ht => ?_, fun d => ?_⟩
    · simp only [List.mem_append, List.mem_cons] at ht
      rcases ht with ht | rfl | ht
      · exact hall t (List.mem_append_left after ht)
      · exact hframed
      · exact hall t (List.mem_append_right before ht)
    · rw [List.foldlM_append, List.foldlM_append]
      congr 1
      funext e
      rw [List.foldlM_cons, alone_of_unsupported (SectionId.ofByte?_eq_none hid)]
      rfl
  | reorder h =>
    refine ⟨fun hall t ht => hall t (h.perm.mem_iff.2 ht), fun d => ?_⟩
    exact (foldlM_alone_congr h.filter_orderKey d).symm

/-! ### The sections of a file -/

/-- A decoder reads one value from the front of an input, and takes one number of bytes. -/
lemma Reads.unique {α : Type} {d : Decoder α} {xs ys rest rest' : List UInt8} {a b : α}
    (h : Reads d xs a) (h' : Reads d ys b) (hsame : xs ++ rest = ys ++ rest') :
    xs = ys ∧ a = b ∧ rest = rest' := by
  have hrun := h 0 rest
  rw [hsame, h' 0 rest'] at hrun
  simp only [EStateM.Result.ok.injEq, Cursor.mk.injEq] at hrun
  obtain ⟨rfl, -, rfl⟩ := hrun
  exact ⟨List.append_cancel_right hsame, rfl, rfl⟩

/-- A file is cut into sections of the right sizes in one way only. -/
lemma eq_of_flatMap_bytes {xs ys : List RawSection} (hxs : ∀ s ∈ xs, s.Framed)
    (hys : ∀ s ∈ ys, s.Framed)
    (h : xs.flatMap RawSection.bytes = ys.flatMap RawSection.bytes) : xs = ys := by
  induction xs generalizing ys with
  | nil =>
    cases ys with
    | nil => rfl
    | cons y ys => cases h
  | cons x xs ih =>
    cases ys with
    | nil => cases h
    | cons y ys =>
      obtain ⟨id, size, body⟩ := x
      obtain ⟨id', size', body'⟩ := y
      simp only [List.flatMap_cons, RawSection.bytes, List.cons_append, List.append_assoc,
        List.cons.injEq] at h
      obtain ⟨rfl, h⟩ := h
      have hsize := hxs _ List.mem_cons_self
      have hsize' := hys _ List.mem_cons_self
      -- the size can be read in one way only, and it says where the body ends
      obtain ⟨rfl, hlength, hrest⟩ :=
        (reads_u32_iff.2 hsize).unique (reads_u32_iff.2 hsize') h
      obtain ⟨rfl, hmore⟩ := List.append_inj hrest hlength
      rw [ih (fun s hs => hxs s (List.mem_cons_of_mem _ hs))
        (fun s hs => hys s (List.mem_cons_of_mem _ hs)) hmore]

/-- The module does not depend on the order of sections that have nothing to do with each other, nor
on sections without a meaning.  An accepted file consists of sections of the right sizes, and
however these are rearranged, the file is accepted again with the same result. -/
theorem decode_rearranged {bytes : List UInt8} {m : Module} (h : decode bytes = .ok m) :
    (∃ sections, bytes = fileBytes sections ∧ ∀ s ∈ sections, s.Framed) ∧
    ∀ sections, bytes = fileBytes sections → (∀ s ∈ sections, s.Framed) →
      ∀ sections', Relation.ReflTransGen Rearranged sections sections' →
        decode (fileBytes sections') = .ok m := by
  obtain ⟨xs, rfl, hxs, d, hfold, hcomplete⟩ := framed_of_decode h
  refine ⟨⟨xs, rfl, hxs⟩, fun sections hbytes hframed sections' hsteps => ?_⟩
  obtain rfl : xs = sections :=
    eq_of_flatMap_bytes hxs hframed (List.append_cancel_left hbytes)
  have hkeeps : (∀ s ∈ sections', s.Framed) ∧
      sections'.foldlM RawSection.alone {} = xs.foldlM RawSection.alone {} := by
    induction hsteps with
    | refl => exact ⟨hxs, rfl⟩
    | tail _ hstep ih =>
      obtain ⟨hframed', hfold'⟩ := hstep.keeps
      exact ⟨hframed' ih.1, (hfold' {}).trans ih.2⟩
  rw [decode_fileBytes hkeeps.1 (hkeeps.2.trans hfold), hcomplete]

/-- A type, a function of this type, a memory and a data segment. -/
def small : Module :=
  { types := [⟨[], []⟩]
    functions := [⟨0, [], []⟩]
    memories := [⟨1, none⟩]
    data := [⟨.passive, [0xff]⟩]
    dataCount := some 1 }

/-- The sections of this module. -/
def smallSections : List RawSection :=
  [⟨1, [4], [0x01, 0x60, 0x00, 0x00]⟩, ⟨3, [2], [0x01, 0x00]⟩, ⟨5, [3], [0x01, 0x00, 0x01]⟩,
    ⟨12, [1], [0x01]⟩, ⟨10, [4], [0x01, 0x02, 0x00, 0x0b]⟩, ⟨11, [4], [0x01, 0x01, 0x01, 0xff]⟩]

lemma framed_small : ∀ s ∈ smallSections, s.Framed := by
  simp only [smallSections, List.forall_mem_cons]
  refine ⟨?_, ?_, ?_, ?_, ?_, ?_, List.forall_mem_nil _⟩ <;> exact ⟨rfl, by decide, rfl, by decide⟩

lemma decode_small : decode (fileBytes smallSections) = .ok small := by
  rw [decode_fileBytes framed_small rfl]
  rfl

/-- The same in another order, with a section without a meaning among them, whose size is spelled
with a group of zeros. -/
def shuffledSections : List RawSection :=
  [⟨12, [1], [0x01]⟩, ⟨3, [2], [0x01, 0x00]⟩, ⟨200, [0x83, 0x00], [1, 2, 3]⟩,
    ⟨5, [3], [0x01, 0x00, 0x01]⟩, ⟨11, [4], [0x01, 0x01, 0x01, 0xff]⟩,
    ⟨10, [4], [0x01, 0x02, 0x00, 0x0b]⟩, ⟨1, [4], [0x01, 0x60, 0x00, 0x00]⟩]

theorem decode_rearranged_small :
    decode (fileBytes smallSections) = .ok small ∧ (∀ s ∈ smallSections, s.Framed) ∧
      Relation.ReflTransGen Rearranged smallSections shuffledSections ∧
      decode (fileBytes shuffledSections) = .ok small := by
  have hinsert : Rearranged smallSections (⟨200, [0x83, 0x00], [1, 2, 3]⟩ :: smallSections) :=
    .insert [] smallSections (by decide) ⟨⟨rfl, rfl⟩, by decide, rfl, by decide⟩
  have hreorder : Reordered (⟨200, [0x83, 0x00], [1, 2, 3]⟩ :: smallSections) shuffledSections :=
    ⟨by decide, by decide, by decide, by decide⟩
  have hsteps := (Relation.ReflTransGen.single hinsert).tail (.reorder hreorder)
  exact ⟨decode_small, framed_small, hsteps,
    (decode_rearranged decode_small).2 smallSections rfl framed_small shuffledSections hsteps⟩

end WasmAot.Binary
