/-
# Sections by themselves

The sections of a file are read where they stand, by readers that could look at all of the file that
is left.  This file shows that they might as well be cut out first: a file is accepted exactly if it
is a header and a sequence of sections with the right sizes, and the body of every section that has
a meaning can be read by itself, to its end.

The step is the locality of the scanners, which they have from the decoders they are made of: what a
scanner does to the draft depends on the bytes it takes and on the draft, and on nothing else.
-/
import WasmAot.Proofs.Binary.Groups
import WasmAot.Proofs.Binary.RoundTrip

namespace WasmAot.Binary

open Stateful

/-! ### Scanners look at nothing but what they take -/

/-- What the first scanner takes and does to the draft, the second one does with the same bytes at
any place. -/
def ScanAgrees {α : Type} (scan scan' : Scanner α) : Prop :=
  ∀ ⦃offset : Nat⦄ ⦃input : List UInt8⦄ ⦃d : Draft⦄ ⦃a : α⦄ ⦃s : ScanState⦄,
    scan ⟨⟨offset, input⟩, d⟩ = .ok a s →
      ∃ used rest, input = used ++ rest ∧ s.cursor = ⟨offset + used.length, rest⟩ ∧
        Scans scan' used d a s.draft

/-- Reading an item leaves the draft as it is. -/
lemma of_scanItem_run {α : Type} {item : Decoder α} {c : Cursor} {d : Draft} {t : ScanState} {a : α}
    (h : scanItem item ⟨c, d⟩ = .ok a t) : ∃ c', item c = .ok a c' ∧ t = ⟨c', d⟩ := by
  rw [scanItem] at h
  dsimp only at h
  split at h
  case h_1 hitem =>
    cases h
    exact ⟨_, hitem, rfl⟩
  case h_2 => cases h

namespace ScanAgrees

variable {α β : Type} {scan scan' : Scanner α} {f g : α → Scanner β}

protected lemma bind (h : ScanAgrees scan scan') (hf : ∀ a, ScanAgrees (f a) (g a)) :
    ScanAgrees (scan >>= f) (scan' >>= g) := by
  intro offset input d b s hrun
  obtain ⟨a, ⟨c, d₁⟩, ha, hb⟩ := of_bind_run_ok hrun
  obtain ⟨xs, rest, rfl, rfl, hxs⟩ := h ha
  obtain ⟨ys, rest, rfl, hcursor, hys⟩ := hf a hb
  refine ⟨xs ++ ys, rest, (List.append_assoc ..).symm, ?_, hxs.bind hys⟩
  rw [hcursor, List.length_append, Nat.add_assoc]

lemma item {item item' : Decoder α} (h : Agrees item item') :
    ScanAgrees (scanItem item) (scanItem item') := by
  intro offset input d a s hrun
  obtain ⟨c, hitem, rfl⟩ := of_scanItem_run hrun
  obtain ⟨used, rest, rfl, rfl, hread⟩ := h hitem
  exact ⟨used, rest, rfl, rfl, .item hread⟩

/-- A change of the draft takes no bytes. -/
lemma modify (change : Draft → Draft) :
    ScanAgrees (modify fun s => { s with draft := change s.draft })
      (modify fun s => { s with draft := change s.draft }) := by
  intro offset input d a s hrun
  cases hrun
  exact ⟨[], input, rfl, rfl, fun _ _ => rfl⟩

lemma extend (change : Module → Module) : ScanAgrees (extend change) (extend change) :=
  .modify fun d => { d with built := change d.built }

lemma parseFault {offset : Nat} {fault : ParseFault} :
    ScanAgrees (parseFault offset fault) scan := by
  intro o input d a s hrun
  cases hrun

/-- Scanners that agree with one take the same bytes, since these are determined by the place where
reading stopped. -/
lemma scans_all {ι : Type} [Nonempty ι] {scan' : ι → Scanner α} {d : Draft} {offset : Nat}
    {input : List UInt8} {a : α} {s : ScanState}
    (h : ∀ i, ∃ used rest, input = used ++ rest ∧ s.cursor = ⟨offset + used.length, rest⟩ ∧
      Scans (scan' i) used d a s.draft) :
    ∃ used rest, input = used ++ rest ∧ s.cursor = ⟨offset + used.length, rest⟩ ∧
      ∀ i, Scans (scan' i) used d a s.draft := by
  obtain ⟨i₀⟩ := ‹Nonempty ι›
  obtain ⟨used, rest, rfl, hcursor, -⟩ := h i₀
  refine ⟨used, rest, rfl, hcursor, fun i => ?_⟩
  obtain ⟨used', rest', hinput, hcursor', hscan⟩ := h i
  rw [hcursor, Cursor.mk.injEq] at hcursor'
  obtain ⟨-, rfl⟩ := hcursor'
  rw [List.append_cancel_right hinput]
  exact hscan

/-- Scanners that ask for their offset may be given different ones. -/
lemma position_bind {f g : Nat → Scanner β} (hf : ∀ o o', ScanAgrees (f o) (g o')) :
    ScanAgrees (scanItem position >>= f) (scanItem position >>= g) := by
  intro offset input d b s hrun
  obtain ⟨used, rest, hinput, hcursor, hscan⟩ := scans_all fun o => hf offset o hrun
  exact ⟨used, rest, hinput, hcursor, .position_bind hscan⟩

/-- Scanners that ask for the state may be given different places in the input. -/
lemma get_bind {f g : ScanState → Scanner β} (hf : ∀ c c' d, ScanAgrees (f ⟨c, d⟩) (g ⟨c', d⟩)) :
    ScanAgrees (get >>= f) (get >>= g) := by
  intro offset input d b s hrun
  have : Nonempty Cursor := ⟨⟨0, []⟩⟩
  obtain ⟨used, rest, hinput, hcursor, hscan⟩ :=
    scans_all fun c => hf ⟨offset, input⟩ c d hrun
  exact ⟨used, rest, hinput, hcursor, .get_bind hscan⟩

end ScanAgrees

lemma scanAgrees_bodies (types : List Nat) : ScanAgrees (scanBodies types) (scanBodies types) := by
  induction types with
  | nil => exact .modify id
  | cons type types ih =>
    exact (ScanAgrees.item (agrees_funcBody type)).bind fun _ =>
      (ScanAgrees.extend _).bind fun _ => ih

lemma scanAgrees_code : ScanAgrees scanCode scanCode := by
  refine .position_bind fun o o' => (ScanAgrees.item agrees_u32).bind fun count =>
    .get_bind fun c c' d => ?_
  dsimp only
  split
  · exact (scanAgrees_bodies _).bind fun _ => .modify fun d => { d with codeSeen := true }
  · exact .parseFault

lemma scanAgrees_data : ScanAgrees scanData scanData := by
  refine (ScanAgrees.item (agrees_vector agrees_dataSegment ⟨_, _, rfl⟩)).bind fun segments =>
    .get_bind fun c c' d => ?_
  dsimp only
  split
  · exact .extend _
  · split
    · exact .extend _
    · exact .position_bind fun o o' => .parseFault

/-- What is scanned in a section does not depend on where the section stands or on what follows. -/
lemma scanAgrees_section (kind : SectionId) : ScanAgrees (scanSection kind) (scanSection kind) := by
  have items {α : Type} {item : Decoder α} {change : List α → Module → Module}
      (h : Agrees item item) (hempty : ∃ e c, item ⟨0, []⟩ = .error e c) :
      ScanAgrees (scanItem (vector item) >>= fun items => extend (change items))
        (scanItem (vector item) >>= fun items => extend (change items)) :=
    (ScanAgrees.item (agrees_vector h hempty)).bind fun _ => .extend _
  have number {change : Nat → Module → Module} :
      ScanAgrees (scanItem u32 >>= fun n => extend (change n))
        (scanItem u32 >>= fun n => extend (change n)) :=
    (ScanAgrees.item agrees_u32).bind fun _ => .extend _
  cases kind with
  | type => exact items agrees_funcType ⟨_, _, rfl⟩
  | imports => exact items agrees_importItem ⟨_, _, rfl⟩
  | function =>
    exact (ScanAgrees.item (agrees_vector agrees_u32 ⟨_, _, rfl⟩)).bind fun declared =>
      .modify fun d => { d with declared }
  | table => exact items agrees_tableType ⟨_, _, rfl⟩
  | memory => exact items agrees_limits ⟨_, _, rfl⟩
  | global => exact items agrees_globalDef ⟨_, _, rfl⟩
  | exports => exact items agrees_exportItem ⟨_, _, rfl⟩
  | start => exact number
  | element => exact items agrees_elemSegment ⟨_, _, rfl⟩
  | code => exact scanAgrees_code
  | data => exact scanAgrees_data
  | dataCount => exact number

/-- A scan that succeeds at one place takes the same bytes, with the same effect, at any place. -/
lemma scans_of_run {kind : SectionId} {offset : Nat} {body rest : List UInt8} {d d' : Draft}
    (h : scanSection kind ⟨⟨offset, body ++ rest⟩, d⟩ =
      .ok () ⟨⟨offset + body.length, rest⟩, d'⟩) : Scans (scanSection kind) body d () d' := by
  obtain ⟨used, rest', hinput, hcursor, hscan⟩ := scanAgrees_section kind h
  rw [Cursor.mk.injEq] at hcursor
  obtain ⟨-, rfl⟩ := hcursor
  rw [List.append_cancel_right hinput]
  exact hscan

/-! ### Files as sequences of sections -/

/-- A section as it stands in a file. -/
structure RawSection where
  id : UInt8
  /-- the bytes that spell the size -/
  size : List UInt8
  body : List UInt8
  deriving DecidableEq

/-- The size of the section is that of its body. -/
def RawSection.Framed (s : RawSection) : Prop :=
  Spells 32 s.size s.body.length

def RawSection.bytes (s : RawSection) : List UInt8 :=
  s.id :: (s.size ++ s.body)

/-- The header, and the sections behind it. -/
def fileBytes (sections : List RawSection) : List UInt8 :=
  magic ++ version ++ sections.flatMap RawSection.bytes

/-- What a section makes of a draft if its body is all there is to read.  The body has to be read to
its end; a section without a meaning leaves the draft as it is. -/
def RawSection.alone (d : Draft) (s : RawSection) : Option Draft :=
  match SectionId.ofByte? s.id with
  | none => some d
  | some kind =>
    match scanSection kind ⟨Cursor.start s.body, d⟩ with
    | .ok _ ⟨cursor, d'⟩ => if cursor.rest = [] then some d' else none
    | .error _ _ => none

lemma alone_of_unsupported {s : RawSection} (h : SectionId.ofByte? s.id = none) (d : Draft) :
    s.alone d = some d := by
  rw [RawSection.alone, h]

/-- A section has its effect by itself exactly if it has this effect wherever it stands. -/
lemma alone_eq_some_iff {s : RawSection} {kind : SectionId}
    (hid : SectionId.ofByte? s.id = some kind) {d d' : Draft} :
    s.alone d = some d' ↔ Scans (scanSection kind) s.body d () d' := by
  rw [RawSection.alone, hid]
  dsimp only
  constructor
  · intro h
    split at h
    case h_1 c after hrun =>
      split at h
      case isTrue hend =>
        cases h
        obtain ⟨used, rest, hinput, hcursor, hscan⟩ := scanAgrees_section kind hrun
        dsimp only at hcursor
        subst hcursor
        dsimp only at hend
        rw [hend, List.append_nil] at hinput
        rwa [hinput]
      case isFalse => cases h
    case h_2 => cases h
  · intro h
    have hrun := h 0 []
    rw [List.append_nil] at hrun
    rw [Cursor.start, hrun]
    rfl

/-- A section of the right size is read as it would be by itself. -/
lemma scans_framed {s : RawSection} (hs : s.Framed) {d d' : Draft} (h : s.alone d = some d') :
    Scans framedSection s.bytes d () d' := by
  refine (Scans.item (reads_byte s.id)).bind ((Scans.item (reads_u32_iff.2 hs)).bind ?_)
  cases hid : SectionId.ofByte? s.id with
  | none =>
    rw [alone_of_unsupported hid] at h
    cases h
    exact .item ((reads_take s.body).finish (Reads.pure ()))
  | some kind =>
    rw [alone_eq_some_iff hid] at h
    exact fun offset rest => exactlyOn_run (h offset rest) (by simp [Cursor.remaining]) rfl

/-- A body that has to take a number of bytes has taken them. -/
lemma run_of_exactlyOn {σ α : Type} {view : σ → Cursor} {size : Nat} {body : EStateM Error σ α}
    {s t : σ} {a : α} (h : exactlyOn view size body s = .ok a t) :
    body s = .ok a t ∧ (view t).offset - (view s).offset = size := by
  rw [exactlyOn, bind_run_ok (get_run s)] at h
  split at h
  · cases h
  · obtain ⟨b, u, hbody, h⟩ := of_bind_run_ok h
    rw [bind_run_ok (get_run u)] at h
    split at h
    case isTrue hsize =>
      cases h
      exact ⟨hbody, hsize⟩
    case isFalse => cases h

/-- What is read as a section is one of the right size, which has the same effect by itself. -/
lemma framed_of_framedSection {offset : Nat} {input : List UInt8} {d : Draft} {t : ScanState}
    (hrun : framedSection ⟨⟨offset, input⟩, d⟩ = .ok () t) :
    ∃ (s : RawSection) (rest : List UInt8), input = s.bytes ++ rest ∧
      t.cursor = ⟨offset + s.bytes.length, rest⟩ ∧ s.Framed ∧ s.alone d = some t.draft := by
  obtain ⟨id, s₁, hitem, hrun⟩ := of_bind_run_ok hrun
  obtain ⟨c₁, hbyte, rfl⟩ := of_scanItem_run hitem
  obtain ⟨size, s₂, hu32, hrun⟩ := of_bind_run_ok hrun
  obtain ⟨c₂, hsize, rfl⟩ := of_scanItem_run hu32
  cases input with
  | nil => cases hbyte
  | cons b input =>
    cases hbyte
    obtain ⟨xs, rest, rfl, rfl, hread⟩ := agrees_u32 hsize
    -- the rest of the section is scanned, or passed over
    have hbody : ∃ body rest', rest = body ++ rest' ∧ body.length = size ∧
        t.cursor = ⟨offset + 1 + xs.length + body.length, rest'⟩ ∧
        RawSection.alone d ⟨id, xs, body⟩ = some t.draft := by
      cases hid : SectionId.ofByte? id with
      | none =>
        rw [hid] at hrun
        obtain ⟨c₃, hskip, rfl⟩ := of_scanItem_run hrun
        obtain ⟨body, c₄, htake, hpure⟩ := of_bind_run_ok hskip
        obtain ⟨rest', rfl, rfl, hlength⟩ := eq_of_take_run htake
        cases hpure
        exact ⟨body, rest', rfl, hlength, rfl, alone_of_unsupported hid d⟩
      | some kind =>
        rw [hid] at hrun
        obtain ⟨hscan, hconsumed⟩ := run_of_exactlyOn hrun
        obtain ⟨body, rest', rfl, hcursor, hscans⟩ := scanAgrees_section kind hscan
        rw [hcursor] at hconsumed
        dsimp only at hconsumed
        exact ⟨body, rest', rfl, by omega, hcursor, (alone_eq_some_iff hid).2 hscans⟩
    obtain ⟨body, rest', rfl, rfl, hcursor, halone⟩ := hbody
    refine ⟨⟨id, xs, body⟩, rest', by simp [RawSection.bytes], ?_, reads_u32_iff.1 hread, halone⟩
    simp only [hcursor, RawSection.bytes, List.length_cons, List.length_append]
    congr 1
    omega

/-! ### Whole files -/

/-- All sections are read, as they would be by themselves. -/
lemma sectionsFrom_run {sections : List RawSection} (hframed : ∀ s ∈ sections, s.Framed)
    {d d' : Draft} (h : sections.foldlM RawSection.alone d = some d') {steps : Nat}
    (hsteps : sections.length ≤ steps) (offset : Nat) :
    ∃ c, sectionsFrom steps ⟨⟨offset, sections.flatMap RawSection.bytes⟩, d⟩ = .ok () ⟨c, d'⟩ := by
  induction sections generalizing d steps offset with
  | nil =>
    cases h
    exact ⟨_, sectionsFrom_end steps offset _⟩
  | cons s sections ih =>
    obtain ⟨d₁, hs, hrest⟩ := Option.bind_eq_some_iff.1 h
    obtain ⟨steps, rfl⟩ : ∃ n, steps = n + 1 := Nat.exists_eq_add_one.2 (by simp at hsteps; omega)
    have hscan := scans_framed (hframed s List.mem_cons_self) hs
    rw [List.flatMap_cons, sectionsFrom, bind_run_ok (get_run _),
      if_neg (by simp [RawSection.bytes]), bind_run_ok (hscan offset _)]
    exact ih (fun s hs => hframed s (List.mem_cons_of_mem _ hs)) hrest (by simpa using hsteps) _

/-- What was read up to the end is a sequence of sections.  The bound on the number of steps does
not end the reading, because every section takes a byte at least. -/
lemma framed_of_sectionsFrom {steps offset : Nat} {input : List UInt8} {d : Draft} {t : ScanState}
    (hrun : sectionsFrom steps ⟨⟨offset, input⟩, d⟩ = .ok () t) (hsteps : input.length ≤ steps) :
    ∃ sections : List RawSection, input = sections.flatMap RawSection.bytes ∧
      (∀ s ∈ sections, s.Framed) ∧ sections.foldlM RawSection.alone d = some t.draft := by
  induction steps generalizing offset input d with
  | zero =>
    cases hrun
    exact ⟨[], List.eq_nil_of_length_eq_zero (by omega), nofun, rfl⟩
  | succ steps ih =>
    rw [sectionsFrom, bind_run_ok (get_run _)] at hrun
    split at hrun
    case isTrue hend =>
      cases hrun
      exact ⟨[], List.isEmpty_iff.1 hend, nofun, rfl⟩
    case isFalse =>
      obtain ⟨⟨⟩, ⟨c, d₁⟩, hsection, hrest⟩ := of_bind_run_ok hrun
      obtain ⟨s, rest, rfl, rfl, hs, halone⟩ := framed_of_framedSection hsection
      have hlength : rest.length ≤ steps := by
        simp only [RawSection.bytes, List.cons_append, List.length_cons,
          List.length_append] at hsteps
        omega
      obtain ⟨sections, rfl, hframed, hfold⟩ := ih hrest hlength
      refine ⟨s :: sections, rfl, List.forall_mem_cons.2 ⟨hs, hframed⟩, ?_⟩
      rw [List.foldlM_cons, halone]
      exact hfold

lemma eq_of_header_run {bytes : List UInt8} {c : Cursor}
    (h : header (Cursor.start bytes) = .ok () c) :
    ∃ rest, bytes = magic ++ version ++ rest ∧ c = ⟨8, rest⟩ := by
  obtain ⟨found, c₁, htake, h⟩ := of_bind_run_ok h
  obtain ⟨rest, rfl, rfl, -⟩ := eq_of_take_run htake
  split at h
  case isFalse => cases h
  case isTrue hmagic =>
    subst hmagic
    obtain ⟨found, c₂, htake, h⟩ := of_bind_run_ok h
    obtain ⟨rest, rfl, rfl, -⟩ := eq_of_take_run htake
    split at h
    case isFalse => cases h
    case isTrue hversion =>
      subst hversion
      cases h
      exact ⟨rest, (List.append_assoc ..).symm, rfl⟩

lemma header_run (rest : List UInt8) :
    header (Cursor.start (magic ++ version ++ rest)) = .ok () ⟨8, rest⟩ :=
  reads_header 0 rest

/-- Sections that are accepted one by one are accepted as a file. -/
lemma decode_fileBytes {sections : List RawSection} (hframed : ∀ s ∈ sections, s.Framed)
    {d : Draft} (h : sections.foldlM RawSection.alone {} = some d) :
    decode (fileBytes sections) = d.complete := by
  have hlength : sections.length ≤ (sections.flatMap RawSection.bytes).length :=
    length_le_length_flatMap fun s _ => by simp [RawSection.bytes]
  obtain ⟨c, hrun⟩ := sectionsFrom_run hframed h hlength 8
  rw [decode, fileBytes, header_run]
  dsimp only [Cursor.remaining]
  rw [hrun]

/-- A file that is accepted consists of sections that are accepted one by one. -/
lemma framed_of_decode {bytes : List UInt8} {m : Module} (h : decode bytes = .ok m) :
    ∃ sections, bytes = fileBytes sections ∧ (∀ s ∈ sections, s.Framed) ∧
      ∃ d, sections.foldlM RawSection.alone {} = some d ∧ d.complete = .ok m := by
  rw [decode] at h
  split at h
  case h_1 => cases h
  case h_2 hheader =>
    obtain ⟨rest, rfl, rfl⟩ := eq_of_header_run hheader
    split at h
    case h_1 => cases h
    case h_2 hrun =>
      obtain ⟨sections, rfl, hframed, hfold⟩ := framed_of_sectionsFrom hrun (Nat.le_refl _)
      exact ⟨sections, rfl, hframed, _, hfold, h⟩

/-- Reading sections where they stand is the same as reading them by themselves.  A file is decoded as
a module exactly if it is a header and sections of the right sizes, whose bodies, each with nothing
behind it, bring the module into an empty draft.  What a scanner does with a body is the same at any
place of any file, whatever comes after it. -/
theorem decode_eq_ok_iff_alone (bytes : List UInt8) (m : Module) :
    (decode bytes = .ok m ↔
      ∃ sections, bytes = fileBytes sections ∧ (∀ s ∈ sections, s.Framed) ∧
        ∃ d, sections.foldlM RawSection.alone {} = some d ∧ d.complete = .ok m) ∧
    ∀ (kind : SectionId) (body : List UInt8) (d d' : Draft) (offset : Nat) (rest : List UInt8),
      scanSection kind ⟨⟨offset, body ++ rest⟩, d⟩ = .ok () ⟨⟨offset + body.length, rest⟩, d'⟩ ↔
        scanSection kind ⟨Cursor.start body, d⟩ = .ok () ⟨⟨body.length, []⟩, d'⟩ := by
  refine ⟨⟨framed_of_decode, ?_⟩, fun kind body d d' offset rest => ⟨fun h => ?_, fun h => ?_⟩⟩
  · rintro ⟨sections, rfl, hframed, d, hfold, hcomplete⟩
    rw [decode_fileBytes hframed hfold, hcomplete]
  · have hscan := scans_of_run h 0 []
    rwa [List.append_nil, Nat.zero_add] at hscan
  · have hrun : scanSection kind ⟨⟨0, body ++ []⟩, d⟩ = .ok () ⟨⟨0 + body.length, []⟩, d'⟩ := by
      rwa [List.append_nil, Nat.zero_add]
    exact scans_of_run hrun offset rest

end WasmAot.Binary
