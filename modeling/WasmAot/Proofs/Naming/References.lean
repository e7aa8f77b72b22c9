/-
# References in emitted code

The code of a unit refers to fields of the struct, to its methods and to its constants by numbered
names.  `refs` lists what an expression, an operation or a line refers to.  The text of a line
without parts that a caller chose holds no other numbered name.
-/
import WasmAot.Code.Line
import WasmAot.Proofs.Naming.Words

namespace WasmAot.Text

/-! ### Numbers -/

lemma idle_nat (n : Nat) : IdleText (toString n) :=
  idle_repr n

lemma idle_int (v : Int) : IdleText (toString v) := by
  cases v with
  | ofNat n => exact idle_nat n
  | negSucc n => exact (idle_nat (n + 1)).behind rfl

lemma idle_hexDigits (width n : Nat) : IdleText (hexDigits width n) := by
  rw [hexDigits, IdleText, String.toList_ofList]
  refine idle_of_alphanumeric fun c hc => ?_
  rcases List.mem_append.1 hc with hc | hc
  · rw [List.eq_of_mem_replicate hc]
    decide
  · exact isAsciiAlphanumeric_of_mem_toDigits (by decide) (by decide) hc

lemma idle_hexPadded (width n : Nat) : IdleText (hexPadded width n) :=
  (idle_hexDigits width n).behind rfl

lemma idle_signed (negative : Bool) {text : String} (h : IdleText text) :
    IdleText (signed negative text) := by
  cases negative with
  | false => exact h
  | true => exact (h.behind rfl).lit rfl

/-! ### Lists -/

lemma idle_intercalate {sep : List Char} (hsep : Idle sep) {parts : List (List Char)}
    (h : ∀ part ∈ parts, Idle part) : Idle (sep.intercalate parts) := by
  induction parts with
  | nil => exact .of_chars nofun
  | cons part parts ih =>
    obtain ⟨hpart, hparts⟩ := List.forall_mem_cons.1 h
    cases parts with
    | nil => simpa using hpart
    | cons next parts =>
      rw [List.intercalate_cons_cons]
      exact (hpart.append hsep).append (ih hparts)

lemma idle_commaSep {parts : List String} (h : ∀ part ∈ parts, IdleText part) :
    IdleText (commaSep parts) := by
  rw [commaSep, IdleText, String.toList_intercalate]
  exact idle_intercalate (by decide) (List.forall_mem_map.2 h)

lemma idle_commaSep_map {α : Type} {f : α → String} {l : List α} (h : ∀ a ∈ l, IdleText (f a)) :
    IdleText (commaSep (l.map f)) :=
  idle_commaSep (List.forall_mem_map.2 h)

end WasmAot.Text

namespace WasmAot.Ieee

open Text

lemma Decimal.idle_text (d : Decimal) : IdleText d.text := by
  have hdigits : ∀ c ∈ decimal d.digits, isAsciiAlphanumeric c = true :=
    fun c hc => isAsciiAlphanumeric_of_mem_toDigits (by decide) (by decide) hc
  have hall : Idle (decimal d.digits) := idle_of_alphanumeric hdigits
  have htake (n : Nat) : Idle ((decimal d.digits).take n) :=
    idle_of_alphanumeric fun c hc => hdigits c (List.mem_of_mem_take hc)
  have hdrop (n : Nat) : Idle ((decimal d.digits).drop n) :=
    idle_of_alphanumeric fun c hc => hdigits c (List.mem_of_mem_drop hc)
  have hzeros (n : Nat) : Idle (List.replicate n '0') :=
    idle_of_alphanumeric fun c hc => List.eq_of_mem_replicate hc ▸ by decide
  unfold Decimal.text
  dsimp only
  split
  · split
    · exact .of_idle ((hall.append (hzeros _)).append (by decide))
    · split
      · exact .of_idle (((htake _).append (by decide)).append (hdrop _))
      · exact .of_idle ((Idle.append (by decide) (hzeros _)).append hall)
  · refine IdleText.text (.of_idle (((htake _).append ?_).append (by decide))) (idle_int _)
    split
    · decide
    · exact Idle.append (show Idle ['.'] by decide) (hdrop 1)

lemma Format.idle_literal (f : Format) {type : String} (htype : IdleText type) (bits : Nat) :
    IdleText (f.literal type bits) := by
  unfold Format.literal
  split
  · exact htype |>.lit rfl |>.text (idle_hexPadded _ _) |>.lit rfl
  · exact htype.lit rfl
  · exact htype.lit rfl
  · refine idle_signed _ ?_
    split
    · exact htype.behind rfl
    · exact (Decimal.idle_text _).text htype

end WasmAot.Ieee

namespace WasmAot.Code

open Text

/-! ### References -/

/-- Something that a unit declares and that its code refers to by name. -/
inductive Ref where
  | field (f : Field)
  /-- the method for a function -/
  | method (func : Nat)
  /-- the method that makes a reference to a function -/
  | handle (func : Nat)
  /-- the constant for a type -/
  | type (index : Nat)
  /-- the constant for the bytes of a data segment -/
  | data (segment : Nat)

/-- The name as written. -/
def Ref.name : Ref → String
  | field f => f.name
  | method func => s!"fn_{func}"
  | handle func => s!"ref_fn_{func}"
  | type index => s!"TYPE_{index}"
  | data segment => s!"DATA_{segment}"

/-- What a place refers to. -/
def Place.refs : Place → List Ref
  | field f => [.field f]
  | given _ => []

/-- What an expression refers to. -/
def Expr.refs : Expr → List Ref
  | ownFuncRef func => [.handle func]
  | callOwn func _ => [.method func]
  | importedFuncRef func | callImported func _ => [.field (.func func)]
  | globalGet index _ => [.field (.global index)]
  | tableGet table _ | tableSize table | tableGrow table _ _ | slotFunc table _ =>
    [.field (.table table)]
  | load memory _ _ _ | memorySize memory | memoryGrow memory _ => memory.refs
  | _ => []

/-- What an operation refers to. -/
def Effect.refs : Effect → List Ref
  | call e => e.refs
  | requireSignature _ type => [.type type]
  | globalSet index _ _ => [.field (.global index)]
  | tableSet table _ _ | tableFill table _ _ _ | tableCopyWithin table _ _ _ =>
    [.field (.table table)]
  | tableCopy src dst _ _ _ => [.field (.table src), .field (.table dst)]
  | tableInit table segment _ _ _ => [.field (.table table), .field (.elem segment)]
  | elemDrop segment => [.field (.elem segment)]
  | store memory _ _ _ _ | memoryCopy memory _ _ _ | memoryFill memory _ _ _ => memory.refs
  | memoryInit memory segment _ _ _ => memory.refs ++ [.field (.data segment)]
  | dataDrop segment => [.field (.data segment)]

/-- What a line refers to. -/
def Line.refs : Line → List Ref
  | bind _ _ _ e | bindDynamic _ e | bindTuple _ _ e => e.refs
  | perform e => e.refs
  | openIfSame src dst => [.field (.table src), .field (.table dst)]
  | _ => []

/-! ### Code that no caller chose -/

/-- The variable is numbered. -/
def Name.Genuine : Name → Prop
  | temp _ | slot _ => True
  | given _ => False

def Label.Genuine : Label → Prop
  | body | numbered _ => True
  | given _ => False

def Place.Genuine : Place → Prop
  | field _ => True
  | given _ => False

/-- The atom is a literal or a numbered variable. -/
def Atom.Genuine : Atom → Prop
  | name n | clone n => n.Genuine
  | i32 _ | i64 _ | f32 _ | f64 _ => True
  | given _ => False

def Expr.Genuine : Expr → Prop
  | atom a | unary _ _ a | convert _ a | isNull a | tableGet _ a | slotFunc _ a => a.Genuine
  | compare _ _ a b | binary _ _ a b | tableGrow _ a b => a.Genuine ∧ b.Genuine
  | select c a b => c.Genuine ∧ a.Genuine ∧ b.Genuine
  | load memory _ _ a | memoryGrow memory a => memory.Genuine ∧ a.Genuine
  | memorySize memory => memory.Genuine
  | callOwn _ args => ∀ a ∈ args, a.Genuine
  | callImported _ args => ∀ p ∈ args, p.2.Genuine
  | callRef callee args => callee.Genuine ∧ ∀ p ∈ args, p.2.Genuine
  | unpack values _ _ => values.Genuine
  | zero _ | null | ownFuncRef _ | importedFuncRef _ | globalGet .. | tableSize _ => True

def Effect.Genuine : Effect → Prop
  | call e => e.Genuine
  | requireSignature callee _ => callee.Genuine
  | globalSet _ _ a => a.Genuine
  | tableSet _ a b => a.Genuine ∧ b.Genuine
  | store memory _ _ a b => memory.Genuine ∧ a.Genuine ∧ b.Genuine
  | tableFill _ a b c | tableCopyWithin _ a b c | tableCopy _ _ a b c | tableInit _ _ a b c =>
    a.Genuine ∧ b.Genuine ∧ c.Genuine
  | memoryInit memory _ a b c | memoryCopy memory a b c | memoryFill memory a b c =>
    memory.Genuine ∧ a.Genuine ∧ b.Genuine ∧ c.Genuine
  | elemDrop _ | dataDrop _ => True

def Line.Genuine : Line → Prop
  | bind _ x _ e | bindDynamic x e => x.Genuine ∧ e.Genuine
  | bindTuple xs _ e => (∀ x ∈ xs, x.Genuine) ∧ e.Genuine
  | assign xs values => (∀ x ∈ xs, x.Genuine) ∧ ∀ a ∈ values, a.Genuine
  | perform e => e.Genuine
  | breakTo label | continueTo label | openBlock label | openLoop label => label.Genuine
  | returnOk values => ∀ a ∈ values, a.Genuine
  | openIf a | openMatch a => a.Genuine
  | returnTrap | openIfSame .. | openElse | openCases _ | openOtherwise | close => True

/-! ### Text without references -/

section

variable {a b : String} (ha : IdleText a) (hb : IdleText b)

lemma idle_typeName (ty : ValType) : IdleText ty.name := by
  cases ty <;> exact .literal rfl

lemma idle_variableType (ty : ValType) : IdleText ty.variableType := by
  cases ty <;> exact .literal rfl

lemma idle_unsignedType (ty : ValType) : IdleText (unsignedType ty) := by
  cases ty <;> exact .literal rfl

lemma idle_wrapper (ty : ValType) : IdleText ty.wrapper := by
  cases ty <;> exact (IdleText.literal rfl).lit rfl

lemma idle_accessor (ty : ValType) : IdleText ty.accessor := by
  cases ty <;> exact .literal rfl

include ha hb in
lemma idle_compareText (ty : ValType) (op : CmpOp) : IdleText (compareText ty op a b) := by
  have hu := idle_unsignedType ty
  cases op with
  | eq | ne | ltS | lt | gtS | gt | leS | le | geS | ge => exact (ha.lit rfl).text hb
  | ltU | gtU | leU | geU =>
    exact ha |>.behind rfl |>.lit rfl |>.text hu |>.lit rfl |>.text hb |>.lit rfl |>.text hu
      |>.lit rfl

include ha in
lemma idle_unaryText (ty : ValType) (op : UnOp) : IdleText (unaryText ty op a) := by
  cases op with
  | clz | ctz | popcnt | extend8S | extend16S | extend32S =>
    exact (ha.lit rfl).text (idle_typeName ty)
  | abs | ceil | floor | trunc | nearest | sqrt => exact ha.lit rfl
  | eqz => exact (ha.behind rfl).lit rfl
  | neg => exact ha.behind rfl

include ha hb in
lemma idle_binaryText (ty : ValType) (op : BinOp) : IdleText (binaryText ty op a b) := by
  have ht := idle_typeName ty
  have hchoice {x y : String} (hx : IdleText x) (hy : IdleText y) :
      IdleText (if ty.isInt then x else y) := by
    split
    · exact hx
    · exact hy
  cases op with
  | add | sub | mul => exact hchoice (ha |>.lit rfl |>.text hb |>.lit rfl) ((ha.lit rfl).text hb)
  | divS | divU | remS | remU | min | max =>
    exact ht |>.behind rfl |>.lit rfl |>.text ha |>.lit rfl |>.text hb |>.lit rfl
  | and | or | xor | div => exact (ha.lit rfl).text hb
  | shl | shrS | rotl | rotr | copysign => exact ha |>.lit rfl |>.text hb |>.lit rfl
  | shrU =>
    exact ha |>.behind rfl |>.lit rfl |>.text (idle_unsignedType ty) |>.lit rfl |>.text hb
      |>.lit rfl |>.text ht

include ha in
lemma idle_convertText (op : CvtOp) : IdleText (convertText op a) := by
  cases op with
  | i32TruncF32S | i32TruncF32U | i32TruncF64S | i32TruncF64U | i64TruncF32S | i64TruncF32U
  | i64TruncF64S | i64TruncF64U | f32ReinterpretI32 | f64ReinterpretI64 =>
    exact (ha.behind rfl).lit rfl
  | _ => exact ha.lit rfl

end

lemma Name.Genuine.idle {x : Name} (h : x.Genuine) : IdleText x.text := by
  cases x with
  | temp n => exact (idle_nat n).behind rfl
  | slot index => exact (idle_nat index).behind rfl
  | given text => exact h.elim

lemma Label.Genuine.idle {label : Label} (h : label.Genuine) : IdleText label.text := by
  cases label with
  | body => exact .literal rfl
  | numbered n => exact (idle_nat n).behind rfl
  | given text => exact h.elim

lemma idle_intLiteral {type : String} (htype : IdleText type) (value : Int) :
    IdleText (intLiteral type value) :=
  idle_signed _ ((idle_nat _).text htype)

lemma Atom.Genuine.idle {a : Atom} (h : a.Genuine) : IdleText a.text := by
  cases a with
  | name n => exact Name.Genuine.idle h
  | clone n => exact (Name.Genuine.idle h).lit rfl
  | i32 value | i64 value => exact idle_intLiteral (.literal rfl) _
  | f32 bits | f64 bits => exact Ieee.Format.idle_literal _ (.literal rfl) _
  | given text => exact h.elim

lemma idle_addressText {addr : Atom} (h : addr.Genuine) (offset : Nat) :
    IdleText (addressText addr offset) :=
  h.idle |>.behind rfl |>.lit rfl |>.text (idle_nat offset) |>.lit rfl

lemma idle_wrapped {args : List (ValType × Atom)} (h : ∀ p ∈ args, p.2.Genuine) :
    IdleText (wrapped args) :=
  idle_commaSep_map fun p hp => idle_wrapper p.1 |>.lit rfl |>.text (h p hp).idle |>.lit rfl

lemma idle_unsignedArgs {a b c : Atom} (ha : a.Genuine) (hb : b.Genuine) (hc : c.Genuine) :
    IdleText (unsignedArgs a b c) :=
  ha.idle |>.lit rfl |>.text hb.idle |>.lit rfl |>.text hc.idle |>.lit rfl

lemma idle_atoms {atoms : List Atom} (h : ∀ a ∈ atoms, a.Genuine) :
    IdleText (commaSep (atoms.map Atom.text)) :=
  idle_commaSep_map fun a ha => (h a ha).idle

/-! ### Text with references -/

/-- A name with its number is one word. -/
lemma Ref.isWord_name (r : Ref) : IsWord r.name.toList := by
  have hnumbered (stem : String) (h : ∀ c ∈ stem.toList, isWordChar c = true) (n : Nat) :
      IsWord (stem ++ toString n).toList := by
    rw [String.toList_append]
    exact isWord_numbered h n
  cases r with
  | field f =>
    cases f with
    | me => exact ⟨by decide, by decide⟩
    | provider n => exact hnumbered "ref_" (by decide) n
    | func n => exact hnumbered "fn_" (by decide) n
    | memory n => exact hnumbered "mem_" (by decide) n
    | global n => exact hnumbered "global_" (by decide) n
    | table n => exact hnumbered "table_" (by decide) n
    | data n => exact hnumbered "data_" (by decide) n
    | elem n => exact hnumbered "elem_" (by decide) n
  | method n => exact hnumbered "fn_" (by decide) n
  | handle n => exact hnumbered "ref_fn_" (by decide) n
  | type n => exact hnumbered "TYPE_" (by decide) n
  | data n => exact hnumbered "DATA_" (by decide) n

section

variable {P : String → Prop}

lemma cites_name {r : Ref} (hr : P r.name) : CitesText P r.name :=
  r.isWord_name.cites (by rwa [String.ofList_toList])

/-- A name whose first part belongs to the text in front of it. -/
lemma cites_stem (r : Ref) (hr : P r.name) {x stem text : String} {n : Nat} (hx : ShutText P x)
    (hname : r.name = stem ++ toString n) (htext : text = x ++ stem) :
    CitesText P (text ++ toString n) := by
  rw [htext, String.append_assoc, ← hname]
  exact hx.append (cites_name hr)

/-- The same behind another text. -/
lemma cites_behind (r : Ref) (hr : P r.name) {x p stem text : String} {n : Nat}
    (hx : ShutText P (x ++ p)) (hname : r.name = stem ++ toString n) (htext : text = p ++ stem) :
    CitesText P (x ++ text ++ toString n) :=
  cites_stem r hr hx hname (by rw [htext, String.append_assoc])

lemma cites_onSelf {f : Field} (hf : P (Ref.field f).name) : CitesText P f.onSelf :=
  (ShutText.literal rfl).append (cites_name hf)

lemma Place.Genuine.cites {memory : Place} (h : memory.Genuine)
    (hrefs : ∀ r ∈ memory.refs, P r.name) : CitesText P memory.text := by
  cases memory with
  | field f => exact cites_onSelf (hrefs (.field f) List.mem_cons_self)
  | given text => exact h.elim

lemma cites_loadText {memory : Place} {addr : Atom} (hmemory : CitesText P memory.text)
    (haddr : addr.Genuine) (op : LoadOp) (offset : Nat) :
    CitesText P (loadText memory op offset addr) := by
  have hflag : IdleText (flagText op.signed) := by cases op.signed <;> exact .literal rfl
  have hea := idle_addressText haddr offset
  unfold loadText
  dsimp only
  split
  · exact ShutText.literal rfl |>.append hmemory |>.lit rfl |>.text hea |>.last rfl
  · exact hmemory |>.lit rfl |>.text hea |>.last rfl
  · exact hmemory |>.lit rfl |>.text hea |>.lit rfl |>.text (idle_nat op.bits) |>.lit rfl
      |>.text hflag |>.last rfl
  · exact hmemory |>.lit rfl |>.text hea |>.lit rfl |>.text (idle_nat op.bits) |>.lit rfl
      |>.text hflag |>.last rfl |>.last rfl

lemma cites_globalGetText {index : Nat} (h : P (Ref.field (.global index)).name) (ty : ValType) :
    CitesText P (globalGetText index ty) := by
  cases ty <;> exact ((cites_onSelf h).last rfl).last rfl

lemma first_name {r : Ref} {rs : List Ref} (h : ∀ r' ∈ r :: rs, P r'.name) : P r.name :=
  h r List.mem_cons_self

/-- The text of an expression holds no numbered name but those of its references. -/
lemma Expr.Genuine.cites {e : Expr} (h : e.Genuine) (hrefs : ∀ r ∈ e.refs, P r.name) :
    CitesText P e.text := by
  cases e with
  | atom a => exact (Atom.Genuine.idle h).cites
  | zero ty => cases ty <;> exact (IdleText.literal rfl).cites
  | compare ty op a b =>
    exact (((idle_compareText h.1.idle h.2.idle ty op).behind rfl).lit rfl).cites
  | unary ty op a => exact (idle_unaryText (Atom.Genuine.idle h) ty op).cites
  | binary ty op a b => exact (idle_binaryText h.1.idle h.2.idle ty op).cites
  | convert op a => exact (idle_convertText (Atom.Genuine.idle h) op).cites
  | select c a b =>
    exact h.1.idle |>.behind rfl |>.lit rfl |>.text h.2.1.idle |>.lit rfl |>.text h.2.2.idle
      |>.lit rfl |>.cites
  | null => exact (IdleText.literal rfl).cites
  | isNull a => exact ((Atom.Genuine.idle h).lit rfl).cites
  | ownFuncRef func =>
    exact (cites_stem (x := "Some(self.") (.handle func) (first_name hrefs)
      (.literal rfl) rfl rfl).last rfl
  | importedFuncRef func =>
    exact ShutText.literal rfl |>.append (cites_onSelf (first_name hrefs)) |>.last rfl
  | globalGet index ty => exact cites_globalGetText (first_name hrefs) ty
  | tableGet table index =>
    exact cites_onSelf (first_name hrefs) |>.lit rfl |>.text (Atom.Genuine.idle h) |>.last rfl
  | tableSize table => exact (cites_onSelf (first_name hrefs)).last rfl
  | tableGrow table delta init =>
    exact cites_onSelf (first_name hrefs) |>.lit rfl |>.text h.1.idle |>.lit rfl |>.text h.2.idle
      |>.last rfl
  | load memory op offset addr => exact cites_loadText (h.1.cites hrefs) h.2 op offset
  | memorySize memory => exact (Place.Genuine.cites h hrefs).last rfl
  | memoryGrow memory delta => exact h.1 |>.cites hrefs |>.lit rfl |>.text h.2.idle |>.last rfl
  | callOwn func args =>
    exact cites_stem (x := "self.") (.method func) (first_name hrefs) (.literal rfl) rfl rfl
      |>.lit rfl |>.text (idle_atoms h) |>.last rfl
  | callImported func args =>
    exact cites_onSelf (first_name hrefs) |>.lit rfl |>.text (idle_wrapped h) |>.last rfl
  | slotFunc table slot =>
    exact cites_onSelf (first_name hrefs) |>.lit rfl |>.text (Atom.Genuine.idle h) |>.last rfl
      |>.last rfl
  | callRef callee args => exact h.1.idle |>.lit rfl |>.text (idle_wrapped h.2) |>.lit rfl |>.cites
  | unpack values position ty =>
    exact Name.Genuine.idle h |>.lit rfl |>.text (idle_nat position) |>.lit rfl
      |>.text (idle_accessor ty) |>.lit rfl |>.cites

lemma cites_globalSetText {index : Nat} {value : String} (h : P (Ref.field (.global index)).name)
    (hvalue : IdleText value) (ty : ValType) : CitesText P (globalSetText index ty value) := by
  cases ty with
  | funcref | externref =>
    exact cites_onSelf h |>.last rfl |>.lit rfl |>.text (idle_wrapper _) |>.lit rfl |>.text hvalue
      |>.last rfl
  | _ => exact cites_onSelf h |>.last rfl |>.lit rfl |>.text hvalue |>.last rfl

lemma cites_storeText {memory : Place} {addr value : Atom} (hmemory : CitesText P memory.text)
    (haddr : addr.Genuine) (hvalue : value.Genuine) (op : StoreOp) (offset : Nat) :
    CitesText P (storeText memory op offset addr value) := by
  have hea := idle_addressText haddr offset
  unfold storeText
  dsimp only
  split
  · exact hmemory |>.last rfl |>.lit rfl |>.text hvalue.idle |>.lit rfl |>.text hea |>.last rfl
  · exact hmemory |>.last rfl |>.lit rfl |>.text hvalue.idle |>.lit rfl |>.text hea |>.last rfl
  · exact hmemory |>.last rfl |>.lit rfl |>.text hvalue.idle |>.lit rfl |>.text hea |>.lit rfl
      |>.text (idle_nat op.bits) |>.last rfl
  · exact hmemory |>.last rfl |>.lit rfl |>.text hvalue.idle |>.lit rfl |>.text hea |>.lit rfl
      |>.text (idle_nat op.bits) |>.last rfl

/-- The text of an operation holds no numbered name but those of its references. -/
lemma Effect.Genuine.cites {e : Effect} (h : e.Genuine) (hrefs : ∀ r ∈ e.refs, P r.name) :
    CitesText P e.text := by
  cases e with
  | call e => exact Expr.Genuine.cites h hrefs
  | requireSignature callee type =>
    exact (cites_behind (p := ".expect_type(&") (.type type) (first_name hrefs)
      ((Name.Genuine.idle h).cites.lit rfl) rfl rfl).last rfl
  | globalSet index ty value =>
    exact cites_globalSetText (first_name hrefs) (Atom.Genuine.idle h) ty
  | tableSet table index value =>
    exact cites_onSelf (first_name hrefs) |>.lit rfl |>.text h.1.idle |>.lit rfl |>.text h.2.idle
      |>.last rfl
  | tableCopyWithin table src dst len =>
    exact cites_onSelf (first_name hrefs) |>.lit rfl |>.text (idle_unsignedArgs h.1 h.2.1 h.2.2)
      |>.last rfl
  | elemDrop segment | dataDrop segment => exact (cites_onSelf (first_name hrefs)).last rfl
  | store memory op offset addr value =>
    exact cites_storeText (h.1.cites hrefs) h.2.1 h.2.2 op offset
  | tableFill table len value offset =>
    exact ((cites_onSelf (first_name hrefs)).lit rfl).text (h.1.idle |>.behind rfl |>.lit rfl
      |>.text h.2.1.idle |>.lit rfl |>.text h.2.2.idle |>.lit rfl)
  | tableCopy srcTable dstTable src dst len =>
    have hdst := cites_onSelf (hrefs (.field (.table dstTable)) (by simp [Effect.refs]))
    exact ((cites_onSelf (first_name hrefs)).lit rfl).append (ShutText.literal rfl |>.append hdst
      |>.lit rfl |>.text (idle_unsignedArgs h.1 h.2.1 h.2.2) |>.last rfl)
  | tableInit table segment src dst len =>
    have hsegment := cites_onSelf (hrefs (.field (.elem segment)) (by simp [Effect.refs]))
    exact ((cites_onSelf (first_name hrefs)).lit rfl).append (ShutText.literal rfl
      |>.append hsegment |>.lit rfl |>.text (idle_unsignedArgs h.1 h.2.1 h.2.2) |>.last rfl)
  | memoryInit memory segment src dst len =>
    have hmemory := h.1.cites fun r hr => hrefs r (List.mem_append_left _ hr)
    have hsegment := cites_onSelf (hrefs (.field (.data segment)) (by simp [Effect.refs]))
    exact (hmemory.lit rfl).append (ShutText.literal rfl |>.append hsegment |>.lit rfl
      |>.text (idle_unsignedArgs h.2.1 h.2.2.1 h.2.2.2) |>.last rfl)
  | memoryCopy memory src dst len =>
    exact h.1 |>.cites hrefs |>.lit rfl |>.text h.2.1.idle |>.lit rfl
      |>.text (h.2.2.1.idle |>.lit rfl |>.text h.2.2.2.idle |>.lit rfl)
  | memoryFill memory dst value len =>
    exact h.1 |>.cites hrefs |>.lit rfl |>.text h.2.2.2.idle |>.lit rfl
      |>.text (h.2.2.1.idle |>.lit rfl |>.text h.2.1.idle |>.lit rfl)

/-! ### Lines -/

lemma idle_names {xs : List Name} (h : ∀ x ∈ xs, x.Genuine) :
    IdleText (commaSep (xs.map Name.text)) :=
  idle_commaSep_map fun x hx => (h x hx).idle

lemma idle_variableTypes (types : List ValType) :
    IdleText (commaSep (types.map ValType.variableType)) :=
  idle_commaSep_map fun ty _ => idle_variableType ty

lemma idle_tupleText {parts : List String} (h : ∀ part ∈ parts, IdleText part) :
    IdleText (tupleText parts) := by
  unfold tupleText
  split
  · exact .literal rfl
  · exact h _ List.mem_cons_self
  · exact ((idle_commaSep h).behind rfl).lit rfl

lemma idle_assignText {xs : List Name} {values : List Atom} (hxs : ∀ x ∈ xs, x.Genuine)
    (hvalues : ∀ a ∈ values, a.Genuine) : IdleText (assignText xs values) := by
  unfold assignText
  split
  · exact (hxs _ List.mem_cons_self).idle |>.lit rfl |>.text (hvalues _ List.mem_cons_self).idle
      |>.lit rfl
  · exact idle_names hxs |>.behind rfl |>.lit rfl |>.text (idle_atoms hvalues) |>.lit rfl

lemma idle_cases (cases : List Nat) : IdleText (" | ".intercalate (cases.map toString)) := by
  rw [IdleText, String.toList_intercalate]
  refine idle_intercalate (by decide) fun part hpart => ?_
  rw [List.map_map] at hpart
  obtain ⟨n, -, rfl⟩ := List.mem_map.1 hpart
  exact idle_nat n

/-- The text of a line holds no numbered name but those of its references. -/
lemma Line.Genuine.cites {line : Line} (h : line.Genuine) (hrefs : ∀ r ∈ line.refs, P r.name) :
    CitesText P line.layout.text := by
  cases line with
  | bind mutable x ty e =>
    have hkeyword : IdleText (if mutable then "let mut" else "let") := by
      cases mutable <;> exact .literal rfl
    exact hkeyword |>.lit rfl |>.text h.1.idle |>.lit rfl |>.text (idle_variableType ty) |>.cites
      |>.lit rfl |>.append (h.2.cites hrefs) |>.last rfl
  | bindDynamic x e =>
    exact h.1.idle |>.behind rfl |>.cites |>.lit rfl |>.append (h.2.cites hrefs) |>.last rfl
  | bindTuple xs types e =>
    exact idle_names h.1 |>.behind rfl |>.lit rfl |>.text (idle_variableTypes types) |>.cites
      |>.lit rfl |>.append (h.2.cites hrefs) |>.last rfl
  | assign xs values => exact (idle_assignText h.1 h.2).cites
  | perform e => exact (Effect.Genuine.cites h hrefs).last rfl
  | breakTo label | continueTo label => exact (((Label.Genuine.idle h).behind rfl).lit rfl).cites
  | returnOk values =>
    have hvalues : ∀ part ∈ values.map Atom.text, IdleText part := by
      intro part hpart
      obtain ⟨a, ha, rfl⟩ := List.mem_map.1 hpart
      exact (h a ha).idle
    exact (((idle_tupleText hvalues).behind rfl).lit rfl).cites
  | openBlock label | openLoop label => exact ((Label.Genuine.idle h).lit rfl).cites
  | openIf a | openMatch a => exact (((Atom.Genuine.idle h).behind rfl).lit rfl).cites
  | openIfSame src dst =>
    have hdst := cites_onSelf (hrefs (.field (.table dst)) (by simp [Line.refs]))
    exact ShutText.literal rfl |>.append (cites_onSelf (first_name hrefs)) |>.lit rfl |>.append hdst
      |>.last rfl
  | openCases cases => exact ((idle_cases cases).lit rfl).cites
  | returnTrap | openElse | openOtherwise | close => exact (IdleText.literal rfl).cites

end

end WasmAot.Code
