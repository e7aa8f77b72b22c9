/-
# References in the sections of a unit

Apart from the methods for functions, a unit consists of constants, the struct, the steps of the
constructor, handles, entries and lookups.  Each of them has its references, and the lines written
for it hold no numbered name but theirs.
-/
import WasmAot.Artifact.Basic
import WasmAot.Proofs.Naming.Identifiers
import WasmAot.Proofs.Naming.References

namespace WasmAot.Artifact

open Code Text

/-! ### References -/

/-- What a reference to a function refers to. -/
def FuncItem.ref : FuncItem → Ref
  | own func => .handle func
  | imported func => .field (.func func)

def ElemItem.refs : ElemItem → List Ref
  | func item => [item.ref]
  | null => []
  | global index => [.field (.global index)]

def Offset.refs : Offset → List Ref
  | const _ => []
  | global index => [.field (.global index)]

/-- What the first value of a global refers to, if it does not have to wait for the instance. -/
def initialRefs : ConstExpr → List Ref
  | .globalGet index => [.field (.global index)]
  | _ => []

def importRefs : ImportDesc → List Ref
  | .func type => [.type type]
  | _ => []

/-- What a step of the constructor refers to, apart from the values of the fields that it builds. -/
def Step.refs : Step → List Ref
  | findProvider n _ => [.field (.provider n)]
  | resolve field provider item =>
    .field field :: .field (.provider provider) :: importRefs item.desc
  | newMemory index _ => [.field (.memory index)]
  | newGlobal index _ => [.field (.global index)]
  | initGlobal index init => .field (.global index) :: initialRefs init
  | newTable index _ => [.field (.table index)]
  | build inits => inits.map fun f => .field f.field
  | publish | done => []
  | initFuncGlobal index item => [.field (.global index), item.ref]
  | keepElems segment items => .field (.elem segment) :: items.flatMap ElemItem.refs
  | copyData segment memory offset => .field (.memory memory) :: .data segment :: offset.refs
  | copyElems table offset items =>
    .field (.table table) :: (offset.refs ++ items.flatMap ElemItem.refs)
  | callStart func own => [if own then .method func else .field (.func func)]

/-- The fields that a step builds. -/
def Step.inits : Step → List FieldInit
  | build inits => inits
  | _ => []

def Handle.refs (h : Handle) : List Ref :=
  [.handle h.func, .type h.typeIndex, .method h.func]

def EntryBody.ref : EntryBody → Ref
  | call func _ => .method func
  | forward func => .field (.func func)
  | share field => .field field

def Found.ref : Found → Ref
  | handle func => .handle func
  | field f => .field f

section

variable {P : String → Prop}

/-! ### Constants and the struct -/

lemma idle_typeSlice (types : List ValType) : IdleText (typeSlice types) := by
  have hentries : IdleText (commaSep (types.map ValType.signatureEntry)) :=
    idle_commaSep_map fun ty _ => by cases ty <;> exact (IdleText.literal rfl).lit rfl
  exact (hentries.behind rfl).lit rfl

lemma cites_typeConstant {n : Nat} (h : P (Ref.type n).name) (type : FuncType) :
    CitesText P (typeConstant n type) := by
  have hname : CitesText P ("TYPE_" ++ toString n) := cites_name (r := .type n) h
  have hresults : IdleText ("results: " ++ typeSlice type.results ++ " \x7d") :=
    ((idle_typeSlice type.results).behind rfl).lit rfl
  exact hname |>.lit rfl |>.text (idle_typeSlice type.params) |>.lit rfl |>.text hresults

lemma cites_dataConstant {k : Nat} (h : P (Ref.data k).name) (bytes : List UInt8) :
    CitesText P (dataConstant k bytes) := by
  have hname : CitesText P ("DATA_" ++ toString k) := cites_name (r := .data k) h
  have hliteral : IsLiteral ("\"" ++ byteLiteral bytes ++ "\"").toList := by
    rw [String.toList_append, String.toList_append]
    exact isLiteral_byteLiteral bytes
  have htext : dataConstant k bytes =
      "DATA_" ++ toString k ++ ": &[u8] = b" ++ ("\"" ++ byteLiteral bytes ++ "\"") := by
    change "DATA_" ++ toString k ++ (": &[u8] = b" ++ "\"") ++ byteLiteral bytes ++ "\"" = _
    simp only [String.append_assoc]
  rw [htext]
  exact ((hname.last rfl).quoted hliteral).cites

lemma clean_constantLayout {text : String} (h : CitesText P text) :
    ∀ line ∈ constantLayout text, line.Clean P := by
  refine List.forall_mem_cons.2 ⟨clean_literal (.literal rfl) nofun,
    List.forall_mem_singleton.2 ?_⟩
  exact clean_of_cites (ShutText.literal rfl |>.append h |>.last rfl) nofun

lemma clean_constantsLayout {data : List (List UInt8)} {types : List FuncType}
    (hdata : ∀ k < data.length, P (Ref.data k).name)
    (htypes : ∀ n < types.length, P (Ref.type n).name) :
    ∀ line ∈ constantsLayout data types, line.Clean P := by
  refine List.forall_mem_append.2 ⟨List.forall_mem_append.2 ⟨List.forall_mem_append.2
    ⟨clean_constantLayout (IdleText.literal rfl).cites, ?_⟩, ?_⟩,
    List.forall_mem_singleton.2 (clean_literal (.literal rfl) nofun)⟩
  · intro line hline
    obtain ⟨⟨bytes, k⟩, hk, hline⟩ := List.mem_flatMap.1 hline
    have hlt : k < data.length := (List.mem_zipIdx' hk).1
    exact clean_constantLayout (cites_dataConstant (hdata k hlt) bytes) line hline
  · intro line hline
    obtain ⟨⟨type, n⟩, hn, hline⟩ := List.mem_flatMap.1 hline
    have hlt : n < types.length := (List.mem_zipIdx' hn).1
    exact clean_constantLayout (cites_typeConstant (htypes n hlt) type) line hline

lemma idle_fieldType (f : Field) : IdleText f.type := by
  cases f <;> exact .literal rfl

lemma cites_field {f : Field} (h : P f.name) : CitesText P f.name :=
  cites_name (r := .field f) h

lemma clean_structLayout {fields : List Field} (h : ∀ f ∈ fields, P f.name) :
    ∀ line ∈ structLayout fields, line.Clean P := by
  have hclose : ∀ line ∈ [Line.closing "\x7d", .blank], line.Clean P :=
    List.forall_mem_cons.2 ⟨clean_literal (.literal rfl) nofun,
      List.forall_mem_singleton.2 (clean_literal (.literal rfl) nofun)⟩
  have hopen : ∀ line ∈ [Line.plain "#[allow(dead_code)]", .opening "pub struct Module \x7b"],
      line.Clean P :=
    List.forall_mem_cons.2 ⟨clean_literal (.literal rfl) nofun,
      List.forall_mem_singleton.2 (clean_literal (.literal rfl) nofun)⟩
  refine List.forall_mem_append.2 ⟨List.forall_mem_append.2 ⟨hopen, ?_⟩, hclose⟩
  intro line hline
  obtain ⟨f, hf, rfl⟩ := List.mem_map.1 hline
  exact clean_of_cites (cites_field (h f hf) |>.lit rfl |>.text (idle_fieldType f)
    |>.last rfl) nofun

/-! ### Steps of the constructor -/

lemma cites_onModule {f : Field} (h : P f.name) : CitesText P f.onModule :=
  (ShutText.literal rfl).append (cites_field h)

lemma cites_commaSep {α : Type} {f : α → String} {l : List α} (h : ∀ a ∈ l, CitesText P (f a)) :
    CitesText P (commaSep (l.map f)) := by
  induction l with
  | nil => exact (IdleText.literal rfl).cites
  | cons a l ih =>
    obtain ⟨ha, hl⟩ := List.forall_mem_cons.1 h
    cases l with
    | nil => exact ha
    | cons b l =>
      rw [commaSep, List.map_cons, List.map_cons, String.intercalate_cons_cons]
      exact (ha.lit rfl).append (ih hl)

lemma FuncItem.cites {item : FuncItem} (h : P item.ref.name) : CitesText P item.text := by
  cases item with
  | own func =>
    exact (cites_stem (x := "Some(module.") (.handle func) h (.literal rfl) rfl rfl).last rfl
  | imported func => exact ShutText.literal rfl |>.append (cites_onModule h) |>.last rfl

lemma ElemItem.cites {item : ElemItem} (h : ∀ r ∈ item.refs, P r.name) : CitesText P item.text := by
  cases item with
  | func item => exact FuncItem.cites (first_name h)
  | null => exact (IdleText.literal rfl).cites
  | global index => exact (cites_onModule (first_name h)).last rfl

lemma cites_itemsText {items : List ElemItem}
    (h : ∀ r ∈ items.flatMap ElemItem.refs, P r.name) : CitesText P (itemsText items) := by
  have hitems : CitesText P (commaSep (items.map ElemItem.text)) :=
    cites_commaSep fun item hitem => ElemItem.cites fun r hr =>
      h r (List.mem_flatMap.2 ⟨item, hitem, hr⟩)
  exact ShutText.literal rfl |>.append hitems |>.last rfl

lemma Offset.cites {offset : Offset} (h : ∀ r ∈ offset.refs, P r.name) :
    CitesText P offset.text := by
  cases offset with
  | const value => exact ((idle_int value.toInt).lit rfl).cites
  | global index => exact (cites_onModule (first_name h)).last rfl

lemma cites_initialValue {init : ConstExpr} (h : ∀ r ∈ initialRefs init, P r.name) :
    CitesText P (initialValue init) := by
  cases init with
  | i32 value | i64 value => exact (((idle_int value.toInt).behind rfl).lit rfl).cites
  | f32 bits => exact (((idle_hexPadded 8 bits.toNat).behind rfl).lit rfl).cites
  | f64 bits => exact (((idle_hexPadded 16 bits.toNat).behind rfl).lit rfl).cites
  | refNull ty => exact ((idle_wrapper ty).lit rfl).cites
  | refFunc func => exact (IdleText.literal rfl).cites
  | globalGet index => exact (cites_field (first_name h)).last rfl

lemma idle_boundsArgs (limits : Limits) : IdleText (boundsArgs limits) := by
  unfold boundsArgs
  split
  · exact idle_nat limits.min |>.lit rfl |>.text (idle_nat _) |>.lit rfl
  · exact (idle_nat limits.min).lit rfl

lemma idle_sharedCell {contents : String} (h : IdleText contents) :
    IdleText (sharedCell contents) :=
  (h.behind rfl).lit rfl

lemma cites_resolveText {field : Field} {provider : Nat} {item : Import}
    (hfield : P field.name) (hprovider : P (Field.provider provider).name)
    (hdesc : ∀ r ∈ importRefs item.desc, P r.name) :
    CitesText P (resolveText field provider item) := by
  have hsource : CitesText P ("&*" ++ (Field.provider provider).name) :=
    (ShutText.literal rfl).append (cites_field hprovider)
  have hmodule : CitesText P (stringLiteral item.moduleName) :=
    (isLiteral_stringLiteral item.moduleName).cites
  have hnames : CitesText P (stringLiteral item.moduleName ++ ", " ++ stringLiteral item.name) :=
    (hmodule.lit rfl).append (isLiteral_stringLiteral item.name).cites
  have hlet : ShutText P ("let " ++ field.name ++ " = ") :=
    ShutText.literal rfl |>.append (cites_field hfield) |>.lit rfl
  unfold resolveText
  dsimp only
  cases hkind : item.desc with
  | func type =>
    rw [hkind] at hdesc
    refine (hlet.append ((cites_behind (p := ", &") (.type type) (first_name hdesc) ?_ rfl
      rfl).last rfl)).last rfl
    exact ShutText.literal rfl |>.append hsource |>.lit rfl |>.append hnames |>.lit rfl
  | memory _ | table _ | global _ =>
    exact (hlet.append (ShutText.literal rfl |>.append hsource |>.lit rfl |>.append hnames
      |>.last rfl)).last rfl

lemma FieldInit.cites {f : FieldInit} (hfield : P f.field.name)
    (hvalue : ∀ value ∈ f.value, CitesText P value) : CitesText P f.text := by
  obtain ⟨field, value⟩ := f
  cases value with
  | none => exact (cites_field hfield).last rfl
  | some value => exact cites_field hfield |>.lit rfl |>.append (hvalue value rfl) |>.last rfl

/-- The lines of a step hold no numbered name but those of its references. -/
lemma Step.clean {step : Step} (hrefs : ∀ r ∈ step.refs, P r.name)
    (hinits : ∀ f ∈ step.inits, ∀ value ∈ f.value, CitesText P value) :
    ∀ line ∈ step.layout, line.Clean P := by
  have only {line : Text.Line} (h : line.Clean P) : ∀ line' ∈ [line], line'.Clean P :=
    List.forall_mem_singleton.2 h
  have brace : ∀ text, IdleText text →
      (Text.Line.opening text).Clean P ∧ (Text.Line.closing text).Clean P :=
    fun text h => ⟨clean_literal h nofun, clean_literal h nofun⟩
  cases step with
  | findProvider n moduleName =>
    have hcall : CitesText P ("env.import(" ++ stringLiteral moduleName ++ ")?") :=
      (IdleText.literal rfl).cites |>.quoted (isLiteral_stringLiteral moduleName)
        |>.text (.literal rfl)
    exact only (clean_of_cites (ShutText.literal rfl |>.append (cites_field (first_name hrefs))
      |>.lit rfl |>.append hcall |>.last rfl) nofun)
  | resolve field provider item =>
    obtain ⟨hfield, hrest⟩ := List.forall_mem_cons.1 hrefs
    obtain ⟨hprovider, hdesc⟩ := List.forall_mem_cons.1 hrest
    exact only (clean_of_cites (cites_resolveText hfield hprovider hdesc) nofun)
  | newMemory index limits | newTable index limits =>
    exact only (clean_of_cites (ShutText.literal rfl |>.append (cites_field (first_name hrefs))
      |>.lit rfl |>.text (idle_sharedCell (((idle_boundsArgs limits).behind rfl).lit rfl))
        |>.last rfl) nofun)
  | newGlobal index type =>
    have hflag : IdleText (flagText type.mutable) := by cases type.mutable <;> exact .literal rfl
    have htag : IdleText (charLiteral type.ty.tag) := by cases type.ty <;> exact .literal rfl
    exact only (clean_of_cites (ShutText.literal rfl |>.append (cites_field (first_name hrefs))
      |>.lit rfl |>.text (idle_sharedCell (htag |>.lit rfl |>.text hflag |>.behind rfl |>.lit rfl))
        |>.last rfl) nofun)
  | initGlobal index init =>
    obtain ⟨hglobal, hinit⟩ := List.forall_mem_cons.1 hrefs
    exact only (clean_of_cites (cites_field hglobal |>.lit rfl |>.append (cites_initialValue hinit)
      |>.last rfl) nofun)
  | build inits =>
    refine List.forall_mem_append.2 ⟨List.forall_mem_append.2
      ⟨only (clean_literal (.literal rfl) nofun), ?_⟩, only (clean_literal (.literal rfl) nofun)⟩
    intro line hline
    obtain ⟨f, hf, rfl⟩ := List.mem_map.1 hline
    exact clean_of_cites (FieldInit.cites (hrefs _ (List.mem_map.2 ⟨f, hf, rfl⟩)) (hinits f hf))
      nofun
  | publish | done => exact only (clean_literal (.literal rfl) nofun)
  | initFuncGlobal index item =>
    obtain ⟨hglobal, hitem⟩ := List.forall_mem_cons.1 hrefs
    exact only (clean_of_cites (cites_onModule hglobal |>.lit rfl
      |>.append (FuncItem.cites (first_name hitem)) |>.last rfl) nofun)
  | keepElems segment items =>
    obtain ⟨hsegment, hitems⟩ := List.forall_mem_cons.1 hrefs
    exact only (clean_of_cites (ShutText.literal rfl |>.append (cites_onModule hsegment) |>.lit rfl
      |>.append (cites_itemsText hitems) |>.last rfl) nofun)
  | copyData segment memory offset =>
    obtain ⟨hmemory, hrest⟩ := List.forall_mem_cons.1 hrefs
    obtain ⟨hdata, hoffset⟩ := List.forall_mem_cons.1 hrest
    have hwrite := cites_stem (x := ".write(") (.data segment) hdata (.literal rfl) rfl rfl
    refine List.forall_mem_cons.2 ⟨(brace _ (.literal rfl)).1, List.forall_mem_cons.2 ⟨?_,
      List.forall_mem_cons.2 ⟨?_, only (brace _ (.literal rfl)).2⟩⟩⟩
    · exact clean_of_cites (ShutText.literal rfl |>.append (Offset.cites hoffset) |>.last rfl) nofun
    · exact clean_of_cites (((cites_onModule hmemory).lit rfl).append (hwrite.last rfl)) nofun
  | copyElems table offset items =>
    obtain ⟨htable, hrest⟩ := List.forall_mem_cons.1 hrefs
    obtain ⟨hoffset, hitems⟩ := List.forall_mem_append.1 hrest
    refine List.forall_mem_cons.2 ⟨(brace _ (.literal rfl)).1, List.forall_mem_cons.2 ⟨?_,
      List.forall_mem_cons.2 ⟨?_, List.forall_mem_cons.2 ⟨?_, only (brace _ (.literal rfl)).2⟩⟩⟩⟩
    · exact clean_of_cites (ShutText.literal rfl |>.append (Offset.cites hoffset) |>.last rfl) nofun
    · exact clean_of_cites (ShutText.literal rfl |>.append (cites_itemsText hitems)
        |>.last rfl) nofun
    · exact clean_of_cites ((cites_onModule htable).last rfl) nofun
  | callStart func own =>
    refine only (clean_of_cites (CitesText.last ?_ rfl) nofun)
    cases own with
    | true =>
      exact (cites_stem (x := "module.") (.method func) (first_name hrefs)
        (.literal rfl) rfl rfl).last rfl
    | false =>
      exact (cites_stem (x := "module.") (.field (.func func)) (first_name hrefs)
        (.literal rfl) rfl rfl).last rfl

/-! ### Methods -/

lemma idle_join {parts : List String} (h : ∀ part ∈ parts, IdleText part) :
    IdleText (String.join parts) := by
  have hfold (start : String) (hstart : IdleText start) :
      IdleText (parts.foldl (fun text part => text ++ part) start) := by
    induction parts generalizing start with
    | nil => exact hstart
    | cons part parts ih =>
      obtain ⟨hpart, hparts⟩ := List.forall_mem_cons.1 h
      exact ih hparts _ (hstart.text hpart)
  exact hfold "" (.literal rfl)

lemma idle_paramList {before : String} (h : IdleText before) (params : List ValType) :
    IdleText (Lowering.paramList before params) := by
  refine idle_join fun part hpart => ?_
  obtain ⟨p, -, rfl⟩ := List.mem_map.1 hpart
  have hslot : IdleText (Name.slot p.2).text := (idle_nat p.2).behind rfl
  exact (h |>.behind rfl |>.text hslot |>.lit rfl |>.text (idle_variableType p.1))

lemma idle_returnType (results : List ValType) : IdleText (returnType results) := by
  have htypes : IdleText (tupleType results) := by
    refine idle_tupleText fun part hpart => ?_
    obtain ⟨ty, -, rfl⟩ := List.mem_map.1 hpart
    exact idle_variableType ty
  exact (htypes.behind rfl).lit rfl

lemma clean_method {f : Lowering.Method} (hname : P (Ref.method f.index).name)
    (hbody : ∀ line ∈ f.body, line.Genuine ∧ ∀ r ∈ line.refs, P r.name) :
    ∀ line ∈ f.layout, line.Clean P := by
  have hlints : IdleText Lowering.methodLints :=
    (IdleText.literal (by decide +kernel)).lit (by decide +kernel)
  have hparams : IdleText (Lowering.paramList "mut " f.type.params) :=
    idle_paramList (.literal rfl) _
  refine List.forall_mem_append.2 ⟨List.forall_mem_append.2 ⟨?_, ?_⟩,
    List.forall_mem_singleton.2 (clean_literal (.literal rfl) nofun)⟩
  · exact List.forall_mem_cons.2 ⟨clean_literal hlints nofun, List.forall_mem_singleton.2
      (clean_of_cites (cites_stem (x := "fn ") (.method f.index) hname (.literal rfl) rfl rfl
        |>.tail rfl |>.text hparams |>.lit rfl |>.text (idle_returnType f.type.results) |>.lit rfl
          |>.cites) nofun)⟩
  · intro line hline
    obtain ⟨source, hsource, rfl⟩ := List.mem_map.1 hline
    obtain ⟨hgenuine, hrefs⟩ := hbody source hsource
    exact clean_of_cites (hgenuine.cites hrefs) (by cases source <;> nofun)

/-! ### Handles, entries and lookups -/

lemma clean_wrapResults {call : String} (hcall : CitesText P call) (results : List ValType) :
    ∀ text ∈ wrapResults call results, CitesText P text := by
  unfold wrapResults
  split
  · exact List.forall_mem_cons.2
      ⟨hcall.last rfl, List.forall_mem_singleton.2 (IdleText.literal rfl).cites⟩
  · rename_i ty
    exact List.forall_mem_singleton.2 (idle_wrapper ty |>.behind rfl |>.cites |>.lit rfl
      |>.append hcall |>.last rfl)
  · have hnames : ∀ name ∈ (List.range results.length).map fun n => s!"r{n}", IdleText name :=
      List.forall_mem_map.2 fun n _ => (idle_nat n).behind rfl
    refine List.forall_mem_cons.2 ⟨?_, List.forall_mem_singleton.2 ?_⟩
    · exact idle_commaSep hnames |>.behind rfl |>.cites |>.lit rfl |>.append hcall |>.last rfl
    · refine (((idle_commaSep fun value hvalue => ?_).behind rfl).lit rfl).cites
      rw [← List.map_uncurry_zip_eq_zipWith] at hvalue
      obtain ⟨p, hp, rfl⟩ := List.mem_map.1 hvalue
      exact idle_wrapper p.1 |>.lit rfl |>.text (hnames p.2 (List.of_mem_zip hp).2) |>.lit rfl

lemma Handle.clean {h : Handle} (hrefs : ∀ r ∈ h.refs, P r.name) :
    ∀ line ∈ h.layout, line.Clean P := by
  obtain ⟨hhandle, hrest⟩ := List.forall_mem_cons.1 hrefs
  obtain ⟨htype, hmethod⟩ := List.forall_mem_cons.1 hrest
  have hargs : IdleText
      (commaSep (h.type.params.zipIdx.map fun p => s!"args[{p.2}].{p.1.accessor}()?")) :=
    idle_commaSep_map fun p _ => idle_nat p.2 |>.behind rfl |>.lit rfl |>.text (idle_accessor p.1)
      |>.lit rfl
  have hargsName : IdleText (if h.type.params.isEmpty then "_args" else "args") := by
    split <;> exact .literal rfl
  have hcall := cites_stem (x := "this.") (.method h.func) (first_name hmethod) (.literal rfl)
    rfl rfl
  refine List.forall_mem_append.2 ⟨List.forall_mem_append.2 ⟨?_, ?_⟩, ?_⟩
  · refine List.forall_mem_cons.2 ⟨clean_literal (.literal rfl) nofun, List.forall_mem_cons.2
      ⟨clean_literal (.literal rfl) nofun, List.forall_mem_cons.2 ⟨clean_of_cites ?_ nofun,
        List.forall_mem_cons.2 ⟨clean_literal (.literal rfl) nofun,
          List.forall_mem_cons.2 ⟨clean_of_cites ?_ nofun, List.forall_mem_singleton.2
            (clean_literal (.literal (by decide +kernel)) nofun)⟩⟩⟩⟩⟩
    · exact (cites_stem (x := "fn ") (.handle h.func) hhandle (.literal rfl) rfl rfl).last rfl
    · exact cites_stem (x := "FuncRef::new(&") (.type h.typeIndex) htype (.literal rfl) rfl
        rfl |>.lit rfl |>.text hargsName |>.last rfl
  · refine List.forall_mem_map.2 fun text htext => clean_of_cites ?_ nofun
    exact clean_wrapResults (hcall |>.lit rfl |>.text hargs |>.last rfl) _ text htext
  · exact List.forall_mem_cons.2 ⟨clean_literal (.literal rfl) nofun,
      List.forall_mem_singleton.2 (clean_literal (.literal rfl) nofun)⟩

lemma EntryBody.cites {body : EntryBody} (h : P body.ref.name) : CitesText P body.texts.2 := by
  cases body with
  | call func type =>
    have hargs : IdleText
        (commaSep ((List.range type.params.length).map fun n => (Name.slot n).text)) :=
      idle_commaSep_map fun n _ => (idle_nat n).behind rfl
    exact cites_stem (x := "self.") (.method func) h (.literal rfl) rfl rfl |>.lit rfl |>.text hargs
      |>.last rfl
  | forward func => exact (cites_onSelf (f := .func func) h).last rfl
  | share field => exact (cites_onSelf h).last rfl

/-- What stands behind the name of the method begins with a parenthesis. -/
lemma EntryBody.head (body : EntryBody) :
    IdleText body.texts.1 ∧ ∃ rest, body.texts.1.toList = '(' :: rest := by
  cases body with
  | call func type =>
    have hparams : IdleText (Lowering.paramList "" type.params) := idle_paramList (.literal rfl) _
    refine ⟨hparams |>.behind rfl |>.lit rfl |>.text (idle_returnType type.results), ?_⟩
    exact ⟨_, by simp only [EntryBody.texts, toString_text, String.toList_append]; rfl⟩
  | forward func => exact ⟨.literal (by decide +kernel), _, String.toList_ofList⟩
  | share field =>
    refine ⟨(idle_fieldType field).behind rfl, ?_⟩
    exact ⟨_, by simp only [EntryBody.texts, toString_text, String.toList_append]; rfl⟩

lemma Found.cites {found : Found} (h : P found.ref.name) : CitesText P found.text := by
  cases found with
  | handle func =>
    exact (cites_stem (x := "self.") (.handle func) h (.literal rfl) rfl rfl).last rfl
  | field f => exact (cites_onSelf h).last rfl

lemma Lookup.clean {l : Lookup} (h : ∀ arm ∈ l.arms, P arm.2.ref.name) :
    ∀ line ∈ l.layout, line.Clean P := by
  have hword : IdleText l.kind.word := by cases l.kind <;> exact .literal rfl
  have htype : IdleText (itemField l.kind 0).type := idle_fieldType _
  have hhead {name type : String} (hname : IdleText name) (htype : IdleText type) :
      (Text.Line.opening
        s!"fn {l.kind.word}(&self, {name}: &str) -> Option<{type}> \x7b").Clean P :=
    clean_literal (hword |>.behind rfl |>.lit rfl |>.text hname |>.lit rfl |>.text htype
      |>.lit rfl) nofun
  unfold Lookup.layout
  dsimp only
  split
  · exact List.forall_mem_cons.2 ⟨hhead (.literal rfl) htype,
      List.forall_mem_cons.2 ⟨clean_literal (.literal rfl) nofun,
        List.forall_mem_singleton.2 (clean_literal (.literal rfl) nofun)⟩⟩
  · refine List.forall_mem_append.2 ⟨List.forall_mem_append.2 ⟨?_, ?_⟩, ?_⟩
    · exact List.forall_mem_cons.2 ⟨hhead (.literal rfl) htype,
        List.forall_mem_singleton.2 (clean_literal (.literal rfl) nofun)⟩
    · refine List.forall_mem_map.2 fun arm harm => clean_of_cites ?_ nofun
      have hkey : CitesText P (stringLiteral arm.1) := (isLiteral_stringLiteral arm.1).cites
      exact hkey |>.lit rfl |>.append (Found.cites (h arm harm)) |>.last rfl
    · exact List.forall_mem_cons.2 ⟨clean_literal (.literal rfl) nofun,
        List.forall_mem_cons.2 ⟨clean_literal (.literal rfl) nofun,
          List.forall_mem_singleton.2 (clean_literal (.literal rfl) nofun)⟩⟩

end

end WasmAot.Artifact
