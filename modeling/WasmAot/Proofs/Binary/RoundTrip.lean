/-
# Decoding what was encoded

The sections of an encoded module are read one after the other, and each of them brings its part of
the module into the draft: after all of them the draft is the module.  Hence `decode` undoes
`encode` on every module that the format can express.
-/
import WasmAot.Binary.Decode
import WasmAot.Proofs.Binary.Items
import WasmAot.Proofs.Binary.Produced

namespace WasmAot.Binary

/-! ### Reading the contents of a section -/

/-- The scanner takes exactly these bytes and leads from one draft to another. -/
def Scans {α : Type} (scan : Scanner α) (bytes : List UInt8) (before : Draft) (a : α)
    (after : Draft) : Prop :=
  ∀ offset rest, scan ⟨⟨offset, bytes ++ rest⟩, before⟩ =
    .ok a ⟨⟨offset + bytes.length, rest⟩, after⟩

namespace Scans

variable {α β : Type} {scan : Scanner α} {f : α → Scanner β} {xs ys : List UInt8} {a : α} {b : β}
  {d d' d'' : Draft}

protected lemma bind (h : Scans scan xs d a d') (hf : Scans (f a) ys d' b d'') :
    Scans (scan >>= f) (xs ++ ys) d b d'' := by
  intro offset rest
  rw [List.append_assoc, Stateful.bind_run_ok (h offset (ys ++ rest)), hf, List.length_append,
    Nat.add_assoc]

/-- What follows takes no bytes. -/
lemma finish (h : Scans scan xs d a d') (hf : Scans (f a) [] d' b d'') :
    Scans (scan >>= f) xs d b d'' :=
  List.append_nil xs ▸ h.bind hf

lemma item {decoder : Decoder α} (h : Reads decoder xs a) : Scans (scanItem decoder) xs d a d := by
  intro offset rest
  rw [scanItem]
  dsimp only
  rw [h]

lemma position_bind {f : Nat → Scanner β} (hf : ∀ offset, Scans (f offset) ys d b d') :
    Scans (scanItem position >>= f) ys d b d' :=
  fun offset rest => hf offset offset rest

lemma get_bind {f : ScanState → Scanner β} (hf : ∀ cursor, Scans (f ⟨cursor, d⟩) ys d b d') :
    Scans (get >>= f) ys d b d' :=
  fun offset rest => hf _ offset rest

end Scans

lemma reads_byte (b : UInt8) : Reads byte [b] b :=
  fun _ _ => rfl

lemma scans_extend (change : Module → Module) (d : Draft) :
    Scans (extend change) [] d () { d with built := change d.built } :=
  fun _ _ => rfl

/-- The body of a function is added behind those that were read before. -/
lemma scans_bodies {functions : List FuncDef} (h : ∀ func ∈ functions, func.Encodable)
    (hsizes : ∀ func ∈ functions, FitsU32 (funcBodyBytes func).length) (d : Draft) :
    Scans (scanBodies (functions.map FuncDef.type)) (functions.flatMap funcBodyBytes) d ()
      { d with built := { d.built with functions := d.built.functions ++ functions } } := by
  induction functions generalizing d with
  | nil =>
    intro offset rest
    rw [List.append_nil]
    rfl
  | cons func functions ih =>
    have hbody := reads_funcBody (h func List.mem_cons_self) (hsizes func List.mem_cons_self)
    have hrest := ih (fun f hf => h f (List.mem_cons_of_mem func hf))
      (fun f hf => hsizes f (List.mem_cons_of_mem func hf))
      { d with built := { d.built with functions := d.built.functions ++ [func] } }
    rw [List.append_assoc, List.singleton_append] at hrest
    exact (Scans.item hbody).bind ((scans_extend _ d).bind hrest)

/-- A code section has a body for every function that was declared. -/
lemma scans_code {functions : List FuncDef} {d : Draft}
    (hdeclared : d.declared = functions.map FuncDef.type) (hcount : FitsU32 functions.length)
    (h : ∀ func ∈ functions, func.Encodable)
    (hsizes : ∀ func ∈ functions, FitsU32 (funcBodyBytes func).length) :
    Scans (scanSection .code) (vectorBytes funcBodyBytes functions) d ()
      { d with
        built := { d.built with functions := d.built.functions ++ functions }
        codeSeen := true } := by
  refine Scans.position_bind fun _ => (Scans.item (reads_u32 hcount)).bind
    (Scans.get_bind fun _ => ?_)
  have hequal : functions.length = d.declared.length := by rw [hdeclared, List.length_map]
  have hbodies := scans_bodies h hsizes d
  rw [← hdeclared] at hbodies
  rw [if_pos hequal]
  exact hbodies.finish fun _ _ => rfl

/-- A data section has as many segments as were announced. -/
lemma scans_data {segments : List DataSegment} {d : Draft}
    (hannounced : ∀ count ∈ d.built.dataCount, count = segments.length)
    (hcount : FitsU32 segments.length) (h : ∀ segment ∈ segments, segment.Encodable) :
    Scans (scanSection .data) (vectorBytes dataSegmentBytes segments) d ()
      { d with built := { d.built with data := d.built.data ++ segments } } := by
  have hvector := reads_vector hcount (fun segment hmem => reads_dataSegment (h segment hmem))
    ⟨_, _, rfl⟩
  refine (Scans.item hvector).finish (Scans.get_bind fun _ => ?_)
  split
  case h_1 => exact scans_extend _ d
  case h_2 count hdata =>
    rw [if_pos (hannounced count hdata)]
    exact scans_extend _ d

/-- A section whose contents are read by the scanner of its id. -/
lemma scans_framedSection {id : UInt8} {kind : SectionId} {contents : List UInt8} {d d' : Draft}
    (hid : SectionId.ofByte? id = some kind) (hsize : FitsU32 contents.length)
    (h : Scans (scanSection kind) contents d () d') :
    Scans framedSection (id :: sizedBytes contents) d () d' := by
  refine (Scans.item (reads_byte id)).bind ((Scans.item (reads_u32 hsize)).bind ?_)
  rw [hid]
  exact fun offset rest => exactlyOn_run (h offset rest) (by simp [Cursor.remaining]) rfl

/-! ### Reading the sections one after the other -/

/-- The bytes of sections: each with its id and its size in front. -/
def framed (entries : List (UInt8 × List UInt8)) : List UInt8 :=
  entries.flatMap fun entry => entry.1 :: sizedBytes entry.2

/-- Reading the sections leads from one draft to another. -/
def Brings (entries : List (UInt8 × List UInt8)) (before after : Draft) : Prop :=
  ∀ steps offset rest,
    sectionsFrom (steps + entries.length) ⟨⟨offset, framed entries ++ rest⟩, before⟩ =
      sectionsFrom steps ⟨⟨offset + (framed entries).length, rest⟩, after⟩

namespace Brings

variable {entries entries' : List (UInt8 × List UInt8)} {d d' d'' : Draft}

lemma nil : Brings [] d d :=
  fun _ _ _ => rfl

lemma append (h : Brings entries d d') (h' : Brings entries' d' d'') :
    Brings (entries ++ entries') d d'' := by
  intro steps offset rest
  have hframed : framed (entries ++ entries') = framed entries ++ framed entries' :=
    List.flatMap_append
  rw [hframed, List.length_append, Nat.add_comm entries.length, ← Nat.add_assoc, List.append_assoc,
    h, h', List.length_append, Nat.add_assoc]

lemma single {id : UInt8} {kind : SectionId} {contents : List UInt8}
    (hid : SectionId.ofByte? id = some kind) (hsize : FitsU32 contents.length)
    (h : Scans (scanSection kind) contents d () d') : Brings [(id, contents)] d d' := by
  intro steps offset rest
  have hframed : framed [(id, contents)] = id :: sizedBytes contents := List.append_nil _
  rw [hframed, List.length_singleton, sectionsFrom,
    Stateful.bind_run_ok (Stateful.get_run _), if_neg (by simp),
    Stateful.bind_run_ok (scans_framedSection hid hsize h offset rest)]

/-- A section that is a vector, or no section for an empty one. -/
lemma vector {α : Type} {id : UInt8} {kind : SectionId} {bytes : α → List UInt8} {items : List α}
    (hid : SectionId.ofByte? id = some kind)
    (hsizes : ∀ entry ∈ vectorSection id bytes items, FitsU32 entry.2.length)
    (h : items ≠ [] → Scans (scanSection kind) (vectorBytes bytes items) d () d')
    (hempty : items = [] → d' = d) : Brings (vectorSection id bytes items) d d' := by
  cases items with
  | nil =>
    rw [hempty rfl]
    exact .nil
  | cons item items =>
    exact .single hid (hsizes _ List.mem_cons_self) (h (List.cons_ne_nil item items))

/-- A section that is a single number, or no section where there is none. -/
lemma number {id : UInt8} {kind : SectionId} {n : Option Nat}
    (change : Option Nat → Module → Module) (hid : SectionId.ofByte? id = some kind)
    (hscan : scanSection kind = scanItem u32 >>= fun n => extend (change (some n)))
    (hfits : ∀ k ∈ n, FitsU32 k) (hsizes : ∀ entry ∈ numberSection id n, FitsU32 entry.2.length)
    (hnone : change none d.built = d.built) :
    Brings (numberSection id n) d { d with built := change n d.built } := by
  cases n with
  | none =>
    rw [hnone]
    exact .nil
  | some k =>
    refine .single hid (hsizes _ List.mem_cons_self) ?_
    rw [hscan]
    exact (Scans.item (reads_u32 (hfits k rfl))).finish (scans_extend (change (some k)) d)

end Brings

section

variable {α : Type} {id : UInt8} {bytes : α → List UInt8} {items : List α}
  (hsizes : ∀ entry ∈ vectorSection id bytes items, FitsU32 entry.2.length)

include hsizes

/-- A vector has no more items than bytes, so their number can be written if the size can. -/
lemma fits_count (hpos : ∀ a ∈ items, 0 < (bytes a).length) : FitsU32 items.length := by
  have hcount := length_le_length_flatMap hpos
  cases items with
  | nil => exact Nat.two_pow_pos 32
  | cons a items =>
    have hsize := hsizes _ List.mem_cons_self
    simp only [vectorBytes, List.length_append, FitsU32] at hsize ⊢
    omega

/-- No item is larger than all of them. -/
lemma fits_item {a : α} (h : a ∈ items) : FitsU32 (bytes a).length := by
  have hle : (bytes a).length ≤ (items.flatMap bytes).length := by
    rw [List.length_flatMap]
    exact List.le_sum_of_mem (List.mem_map_of_mem h)
  cases items with
  | nil => cases h
  | cons b items =>
    have hsize := hsizes _ List.mem_cons_self
    simp only [vectorBytes, List.length_append, FitsU32] at hsize ⊢
    omega

/-- A section whose items are added to the module as they are. -/
lemma brings_items {kind : SectionId} {item : Decoder α} {change : List α → Module → Module}
    (hid : SectionId.ofByte? id = some kind)
    (hscan : scanSection kind = scanItem (vector item) >>= fun items => extend (change items))
    (hread : ∀ a ∈ items, Reads item (bytes a) a) (hempty : ∃ e c, item ⟨0, []⟩ = .error e c)
    ⦃d : Draft⦄ (hnone : change [] d.built = d.built) :
    Brings (vectorSection id bytes items) d { d with built := change items d.built } := by
  have hcount := fits_count hsizes fun a ha => (hread a ha).length_pos hempty
  refine .vector hid hsizes (fun _ => ?_) ?_
  · rw [hscan]
    exact (Scans.item (reads_vector hcount hread hempty)).finish (scans_extend (change items) d)
  · rintro rfl
    rw [hnone]

end

section

variable {functions : List FuncDef} (h : ∀ func ∈ functions, func.Encodable)

include h

/-- The types of the functions are remembered. -/
lemma brings_functions
    (hsizes : ∀ entry ∈ vectorSection 3 unsignedBytes (functions.map FuncDef.type),
      FitsU32 entry.2.length) {d : Draft} (hd : d.declared = []) :
    Brings (vectorSection 3 unsignedBytes (functions.map FuncDef.type)) d
      { d with declared := functions.map FuncDef.type } := by
  have hread : ∀ type ∈ functions.map FuncDef.type, Reads u32 (unsignedBytes type) type := by
    intro type htype
    obtain ⟨func, hfunc, rfl⟩ := List.mem_map.1 htype
    exact reads_u32 (h func hfunc).type
  have hempty : ∃ e c, u32 ⟨0, []⟩ = .error e c := ⟨_, _, rfl⟩
  have hcount := fits_count hsizes fun type htype => (hread type htype).length_pos hempty
  have hid : SectionId.ofByte? 3 = some .function := rfl
  refine .vector hid hsizes (fun _ => ?_) ?_
  · exact (Scans.item (reads_vector hcount hread hempty)).finish fun _ _ => rfl
  · intro hnone
    rw [hnone, ← hd]

/-- The functions are read for the types that were remembered. -/
lemma brings_code
    (hsizes : ∀ entry ∈ vectorSection 10 funcBodyBytes functions, FitsU32 entry.2.length)
    {d : Draft} (hd : d.declared = functions.map FuncDef.type) :
    Brings (vectorSection 10 funcBodyBytes functions) d
      { d with
        built := { d.built with functions := d.built.functions ++ functions }
        codeSeen := !functions.isEmpty || d.codeSeen } := by
  have hbodies : ∀ func ∈ functions, FitsU32 (funcBodyBytes func).length :=
    fun func hfunc => fits_item hsizes hfunc
  have hcount := fits_count hsizes fun func hfunc =>
    (reads_funcBody (h func hfunc) (hbodies func hfunc)).length_pos ⟨_, _, rfl⟩
  have hid : SectionId.ofByte? 10 = some .code := rfl
  refine .vector hid hsizes (fun hne => ?_) ?_
  · have hseen : (!functions.isEmpty || d.codeSeen) = true := by simp [hne]
    rw [hseen]
    exact scans_code hd hcount h hbodies
  · rintro rfl
    simp

end

/-- The segments are as many as were announced. -/
lemma brings_data {segments : List DataSegment} (h : ∀ segment ∈ segments, segment.Encodable)
    (hsizes : ∀ entry ∈ vectorSection 11 dataSegmentBytes segments, FitsU32 entry.2.length)
    {d : Draft} (hd : ∀ count ∈ d.built.dataCount, count = segments.length) :
    Brings (vectorSection 11 dataSegmentBytes segments) d
      { d with built := { d.built with data := d.built.data ++ segments } } := by
  have hcount := fits_count hsizes fun segment hsegment =>
    (reads_dataSegment (h segment hsegment)).length_pos ⟨_, _, rfl⟩
  have hid : SectionId.ofByte? 11 = some .data := rfl
  refine .vector hid hsizes (fun _ => scans_data hd hcount h) ?_
  rintro rfl
  simp

/-! ### Modules -/

lemma reads_header : Reads header (magic ++ version) () := by
  refine (reads_take magic).bind ?_
  rw [if_pos rfl]
  refine (reads_take version).finish ?_
  rw [if_pos rfl]
  exact Reads.pure ()

/-- Where the input ends no more sections are read. -/
lemma sectionsFrom_end (steps offset : Nat) (d : Draft) :
    sectionsFrom steps ⟨⟨offset, []⟩, d⟩ = .ok () ⟨⟨offset, []⟩, d⟩ := by
  cases steps <;> rfl

/-- A module is decoded as the draft that its sections bring. -/
lemma decode_encode_of_brings {m : Module} {d : Draft} (h : Brings (sections m) {} d) :
    decode (encode m) = d.complete := by
  have hlength : (sections m).length ≤ (framed (sections m)).length :=
    length_le_length_flatMap fun entry _ => by simp
  have hrun := h ((framed (sections m)).length - (sections m).length) 8 []
  rw [Nat.sub_add_cancel hlength, List.append_nil, sectionsFrom_end] at hrun
  have hheader : header (Cursor.start (encode m)) = .ok () ⟨8, framed (sections m)⟩ :=
    reads_header 0 (framed (sections m))
  rw [decode, hheader]
  dsimp only [Cursor.remaining]
  rw [hrun]

/-- The sections of a module that can be written bring the module, part by part. -/
lemma brings_sections {m : Module} (h : m.Encodable) :
    ∃ d, Brings (sections m) {} d ∧ d.complete = .ok m := by
  have hsizes := h.sizes
  simp only [sections, List.append_assoc, List.forall_mem_append] at hsizes
  obtain ⟨stypes, simports, sfunctions, stables, smemories, sglobals, sexports, sstart, selements,
    scount, scode, sdata⟩ := hsizes
  -- the number of data segments can be written, since there are no more of them than bytes
  have hcount : ∀ count ∈ m.dataCount, FitsU32 count := by
    intro count hmem
    rw [h.dataCount count hmem]
    exact fits_count sdata fun segment hs => (reads_dataSegment (h.data segment hs)).length_pos
      ⟨_, _, rfl⟩
  -- what each of the sections brings
  have htypes := brings_items stypes rfl rfl (fun type ht => reads_funcType (h.types type ht))
    ⟨_, _, rfl⟩
  have himports := brings_items simports rfl rfl
    (fun item hi => reads_importItem (h.imports item hi)) ⟨_, _, rfl⟩
  have htables := brings_items stables rfl rfl (fun type ht => reads_tableType (h.tables type ht))
    ⟨_, _, rfl⟩
  have hmemories := brings_items smemories rfl rfl
    (fun bounds hb => reads_limits (h.memories bounds hb)) ⟨_, _, rfl⟩
  have hglobals := brings_items sglobals rfl rfl
    (fun item hi => reads_globalDef (h.globals item hi)) ⟨_, _, rfl⟩
  have hexports := brings_items sexports rfl rfl
    (fun item hi => reads_exportItem (h.exports item hi)) ⟨_, _, rfl⟩
  have helements := brings_items selements rfl rfl
    (fun segment hs => reads_elemSegment (h.elements segment hs)) ⟨_, _, rfl⟩
  have hall : Brings (sections m) {} _ :=
    (@htypes {} rfl).append (himports rfl)
      |>.append (brings_functions h.functions sfunctions rfl)
      |>.append (htables rfl) |>.append (hmemories rfl)
      |>.append (hglobals rfl) |>.append (hexports rfl)
      |>.append (.number (fun n m => { m with start := n }) rfl rfl h.start sstart rfl)
      |>.append (helements rfl)
      |>.append (.number (fun n m => { m with dataCount := n }) rfl rfl hcount scount rfl)
      |>.append (brings_code h.functions scode rfl)
      |>.append (brings_data h.data sdata h.dataCount)
  refine ⟨_, hall, ?_⟩
  have hseen :
      ((m.functions.map FuncDef.type).isEmpty || (!m.functions.isEmpty || false)) = true := by
    cases m.functions <;> rfl
  rw [Draft.complete]
  exact if_pos hseen

/-- Decoding undoes encoding: every module that can be written is read back as it is.  What is asked
of the bodies of its functions holds for every expression that can be read. -/
theorem decode_encode :
    (∀ m : Module, m.Encodable → decode (encode m) = .ok m) ∧
      ∀ (c : Cursor) (body : List Instr) (c' : Cursor), expr c = .ok body c' →
        EncodableSeq body ∧ nestingOf body ≤ maxNesting := by
  refine ⟨fun m h => ?_, fun c body c' h => encodable_of_expr h⟩
  obtain ⟨d, hbrings, hcomplete⟩ := brings_sections h
  rw [decode_encode_of_brings hbrings, hcomplete]

/-- A module with something in every section. -/
def sample : Module :=
  { types := [⟨[.i32], [.i64, .i32]⟩]
    imports := [⟨"env", "mémoire", .memory ⟨1, some 300⟩⟩]
    functions :=
      [⟨0, [.i32, .i32, .f64],
        [.block (.indexed 0)
          [.ifElse .empty [.brTable [1, 0] 2] [], .ifElse (.value .i32) [.i32Const (-1)] [.nop]],
        .load ⟨.i32, 8, true⟩ ⟨0, 65536⟩, .convert .i32TruncSatF64U, .binary .f64 .copysign]⟩]
    tables := [⟨.externref, ⟨0, none⟩⟩]
    memories := [⟨2, none⟩]
    globals := [⟨⟨.i64, true⟩, .i64 (-65)⟩]
    exports := [⟨"run", .func, 0⟩]
    start := some 0
    elements :=
      [⟨.externref, .active 0 (.i32 0), [.refNull .externref]⟩, ⟨.funcref, .passive, [.refFunc 0]⟩]
    data := [⟨.passive, [0xff]⟩]
    dataCount := some 1 }

/-- Its bytes: the header, and a line or two for each section. -/
def sampleBytes : List UInt8 :=
  [0x00, 0x61, 0x73, 0x6d, 0x01, 0x00, 0x00, 0x00,
    0x01, 0x07, 0x01, 0x60, 0x01, 0x7f, 0x02, 0x7e, 0x7f,
    0x02, 0x13, 0x01, 0x03, 0x65, 0x6e, 0x76, 0x08, 0x6d, 0xc3, 0xa9, 0x6d, 0x6f, 0x69, 0x72, 0x65,
    0x02, 0x01, 0x01, 0xac, 0x02,
    0x03, 0x02, 0x01, 0x00,
    0x04, 0x04, 0x01, 0x6f, 0x00, 0x00,
    0x05, 0x03, 0x01, 0x00, 0x02,
    0x06, 0x07, 0x01, 0x7e, 0x01, 0x42, 0xbf, 0x7f, 0x0b,
    0x07, 0x07, 0x01, 0x03, 0x72, 0x75, 0x6e, 0x00, 0x00,
    0x08, 0x01, 0x00,
    0x09, 0x11, 0x02, 0x06, 0x00, 0x41, 0x00, 0x0b, 0x6f, 0x01, 0xd0, 0x6f, 0x0b, 0x05, 0x70, 0x01,
    0xd2, 0x00, 0x0b,
    0x0c, 0x01, 0x01,
    0x0a, 0x22, 0x01, 0x20, 0x02, 0x02, 0x7f, 0x01, 0x7c, 0x02, 0x00, 0x04, 0x40, 0x0e, 0x02, 0x01,
    0x00, 0x02, 0x0b, 0x04, 0x7f, 0x41, 0x7f, 0x05, 0x01, 0x0b, 0x0b, 0x2c, 0x00, 0x80, 0x80, 0x04,
    0xfc, 0x03, 0xa6, 0x0b,
    0x0b, 0x04, 0x01, 0x01, 0x01, 0xff]

lemma encodable_sample : sample.Encodable where
  types := by simp [sample, FuncType.Encodable]
  imports := by
    simp only [sample, List.forall_mem_singleton]
    exact ⟨by decide, by decide, by decide, by simp⟩
  functions := by
    simp only [sample, List.forall_mem_singleton]
    exact ⟨by decide, by decide, by decide,
      by simp [EncodableSeq, Instr.Encodable, BlockType.Encodable, MemArg.Encodable]; decide⟩
  tables := by
    simp only [sample, List.forall_mem_singleton]
    exact ⟨rfl, by decide, by simp⟩
  memories := by simp [sample, Limits.Encodable]
  globals := by simp [sample, ConstExpr.Encodable, constInstr, Instr.Encodable]
  exports := by
    simp only [sample, List.forall_mem_singleton]
    exact ⟨by decide, by decide⟩
  start := by simp [sample]
  elements := by
    simp only [sample, List.forall_mem_cons]
    exact ⟨⟨rfl, ⟨by decide, trivial⟩, by decide, List.forall_mem_singleton.2 rfl⟩,
      ⟨rfl, trivial, by decide, List.forall_mem_singleton.2 (show FitsU32 0 by decide)⟩,
      List.forall_mem_nil _⟩
  data := by simp [sample, DataSegment.Encodable, DataMode.Encodable]
  dataCount := by simp [sample]
  sizes := by decide +kernel

theorem decode_encode_sample :
    (sample.Encodable ∧ encode sample = sampleBytes ∧ decode sampleBytes = .ok sample) ∧
      expr ⟨0, [0x02, 0x40, 0x01, 0x0b, 0x0b]⟩ = .ok [.block .empty [.nop]] ⟨5, []⟩ ∧
      EncodableSeq [.block .empty [.nop]] ∧ nestingOf [.block .empty [.nop]] ≤ maxNesting := by
  have hbytes : encode sample = sampleBytes := by decide +kernel
  have hdecode := decode_encode.1 sample encodable_sample
  rw [hbytes] at hdecode
  have hexpr : expr ⟨0, [0x02, 0x40, 0x01, 0x0b, 0x0b]⟩ = .ok [.block .empty [.nop]] ⟨5, []⟩ := rfl
  exact ⟨⟨encodable_sample, hbytes, hdecode⟩, hexpr, decode_encode.2 _ _ _ hexpr⟩

end WasmAot.Binary
