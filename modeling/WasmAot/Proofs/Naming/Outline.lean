/-
# Reading a unit

The text of a unit can be read line by line, outside of its comments and string literals: the fields
of the struct, those of the struct literal in the constructor, the variables that the constructor
binds before it, and the names of constants and methods.  `WellNamed` says that every numbered name
is declared, that no field is declared twice, and that the literal lists the fields of the struct in
their order, where the constructor has bound the fields without a value.
-/
import WasmAot.Proofs.Naming.Plans

namespace WasmAot.Artifact

open Code Text

/-! ### Reading a unit -/

/-- The lines behind the first one that satisfies `first`, up to the next that satisfies `last`. -/
def between (first last : List String → Bool) (lines : List (List String)) : List (List String) :=
  ((lines.dropWhile fun line => !first line).drop 1).takeWhile fun line => !last line

/-- The head of the struct, `pub struct Module`. -/
def isStruct (line : List String) : Bool :=
  line == ["pub", "struct", "Module"]

/-- The head of the constructor, `pub fn new` with its parameters. -/
def isConstructor (line : List String) : Bool :=
  line.take 3 == ["pub", "fn", "new"]

/-- The line in front of the fields of the struct literal,
`let module = Rc::new_cyclic(|me| Module`. -/
def isBuild (line : List String) : Bool :=
  line == ["let", "module", "Rc", "new_cyclic", "me", "Module"]

/-- The names of the fields of the struct, in order. -/
def structFields (lines : List (List String)) : List String :=
  (between isStruct List.isEmpty lines).filterMap List.head?

/-- The names of the fields of the struct literal, in order. -/
def literalFields (lines : List (List String)) : List String :=
  (between isBuild List.isEmpty lines).filterMap List.head?

/-- A field of the struct literal without a value. -/
def shorthand : List String → Option String
  | [name] => some name
  | _ => none

/-- The fields of the struct literal that stand for variables of their names. -/
def shorthandFields (lines : List (List String)) : List String :=
  (between isBuild List.isEmpty lines).filterMap shorthand

/-- The variable that a line binds. -/
def letName : List String → Option String
  | "let" :: name :: _ => some name
  | _ => none

/-- The variables that the constructor binds before the struct literal, in order. -/
def constructorLets (lines : List (List String)) : List String :=
  (between isConstructor isBuild lines).filterMap letName

/-- The constant or the method that a line begins. -/
def definedName : List String → Option String
  | "static" :: name :: _ | "fn" :: name :: _ => some name
  | _ => none

/-- The method for an export that a line begins. -/
def accessorName : List String → Option String
  | "pub" :: "fn" :: name :: _ => some name
  | _ => none

/-- The names that the unit declares for its own use. -/
def declaredNames (lines : List (List String)) : List String :=
  structFields lines ++ constructorLets lines ++ lines.filterMap definedName

/-- What stands in front of the numbers of names. -/
def stems : List String :=
  ["fn_", "ref_fn_", "mem_", "table_", "global_", "data_", "elem_", "ref_", "TYPE_", "DATA_"]

/-- The word is one of the stems with a number behind it. -/
def isNumbered (word : String) : Bool :=
  stems.any fun stem => (stripStart? stem.toList word.toList).any isNumber

/-- The names of a unit are in order. -/
structure WellNamed (lines : List (List String)) : Prop where
  /-- a numbered name is declared by the unit, or the line begins the method of this name -/
  declared : ∀ line ∈ lines, ∀ word ∈ line, isNumbered word = true →
    word ∈ declaredNames lines ∨ accessorName line = some word
  /-- no two fields have the same name -/
  distinct : (structFields lines).Nodup
  /-- the literal lists the fields of the struct -/
  listed : literalFields lines = structFields lines
  /-- a field without a value is bound once in front of the literal -/
  bound : ∀ name ∈ shorthandFields lines, (constructorLets lines).count name = 1

/-! ### Numbered words -/

/-- Every stem ends in an underscore, so the number stands behind one. -/
lemma hasIndex_of_isNumbered {word : String} (h : isNumbered word = true) :
    HasIndex word.toList := by
  have hlast : ∀ stem ∈ stems, stem.toList.getLast? = some '_' := by decide +kernel
  obtain ⟨stem, hstem, hword⟩ := List.any_eq_true.1 h
  obtain ⟨rest, hstrip, hnumber⟩ := (Option.any_eq_true _ _).1 hword
  obtain ⟨front, hfront⟩ := List.getLast?_eq_some_iff.1 (hlast stem hstem)
  cases rest with
  | nil => cases hnumber
  | cons d rest =>
    simp only [isNumber, List.isEmpty_cons, Bool.not_false, Bool.true_and, List.all_cons,
      Bool.and_eq_true] at hnumber
    refine ⟨front, d, rest, ?_, hnumber.1⟩
    rw [stripStart?_eq_some_iff.1 hstrip, hfront, List.append_assoc]
    rfl

/-! ### Blocks of lines -/

/-- A block stands between its head and the line that ends it. -/
lemma between_eq {first last : List String → Bool} {before body after : List (List String)}
    {head stop : List String} (hbefore : ∀ line ∈ before, first line = false)
    (hhead : first head = true) (hbody : ∀ line ∈ body, last line = false)
    (hstop : last stop = true) :
    between first last (before ++ head :: (body ++ stop :: after)) = body := by
  rw [between, List.dropWhile_append_of_pos fun line hline => by rw [hbefore line hline]; rfl,
    List.dropWhile_cons_of_neg (by rw [hhead]; decide), List.drop_one, List.tail_cons,
    List.takeWhile_append_of_pos fun line hline => by rw [hbody line hline]; rfl,
    List.takeWhile_cons_of_neg (by rw [hstop]; decide), List.append_nil]

/-- No block begins with the line. -/
def Inner (line : List String) : Prop :=
  ∀ word ∈ line.head?, word ≠ "pub" ∧ word ≠ "let"

instance (line : List String) : Decidable (Inner line) :=
  inferInstanceAs (Decidable (∀ word ∈ line.head?, word ≠ "pub" ∧ word ≠ "let"))

section

variable {line : List String}

lemma Inner.isStruct (h : Inner line) : isStruct line = false := by
  refine Bool.eq_false_iff.2 fun heq => (h "pub" ?_).1 rfl
  rw [eq_of_beq heq]
  rfl

lemma Inner.isConstructor (h : Inner line) : isConstructor line = false := by
  refine Bool.eq_false_iff.2 fun heq => (h "pub" ?_).1 rfl
  have hhead : (line.take 3).head? = some "pub" := by
    rw [eq_of_beq heq]
    rfl
  cases line with
  | nil => cases hhead
  | cons word line => exact hhead

lemma Inner.isBuild (h : Inner line) : isBuild line = false := by
  refine Bool.eq_false_iff.2 fun heq => (h "let" ?_).2 rfl
  rw [eq_of_beq heq]
  rfl

lemma Inner.letName (h : Inner line) : letName line = none := by
  unfold Artifact.letName
  split
  · exact absurd rfl (h "let" rfl).2
  · rfl

lemma inner_of_prefix {word : String} (h : [word] <+: line) (hpub : word ≠ "pub")
    (hlet : word ≠ "let") : Inner line := by
  obtain ⟨rest, rfl⟩ := h
  intro w hw
  cases hw
  exact ⟨hpub, hlet⟩

lemma definedName_of_static {name : String} (h : ["static", name] <+: line) :
    definedName line = some name := by
  obtain ⟨rest, rfl⟩ := h
  rfl

lemma definedName_of_fn {name : String} (h : ["fn", name] <+: line) :
    definedName line = some name := by
  obtain ⟨rest, rfl⟩ := h
  rfl

lemma accessorName_of_pub {name : String} (h : ["pub", "fn", name] <+: line) :
    accessorName line = some name := by
  obtain ⟨rest, rfl⟩ := h
  rfl

end

/-! ### Words of the lines -/

lemma words_literal {line : Text.Line} {l : List Char} {ws : List String}
    (htext : line.text = String.ofList l) (h : words (strip .code l) = ws) : line.words = ws := by
  rw [Line.words, htext, String.toList_ofList, h]

/-- The names of fields are not among the words with which other lines begin. -/
lemma Field.name_ne (f : Field) {word : String} (hword : '_' ∉ word.toList) (hme : word ≠ "me") :
    f.name ≠ word := by
  rintro rfl
  cases f with
  | me => exact hme rfl
  | _ => exact hword (by simp [Field.name])

lemma isWord_literal {l : List Char}
    (hl : decide (l ≠ [] ∧ l.all isWordChar = true) = true) : IsWord (String.ofList l).toList := by
  obtain ⟨hne, hchars⟩ := of_decide_eq_true hl
  rw [String.toList_ofList]
  exact ⟨hne, List.all_eq_true.1 hchars⟩

lemma isWord_field (f : Field) : IsWord f.name.toList :=
  (Ref.field f).isWord_name

lemma inner_of_field {f : Field} {line : List String} (h : [f.name] <+: line) : Inner line :=
  inner_of_prefix h (Field.name_ne f (by decide) (by decide))
    (Field.name_ne f (by decide) (by decide))

lemma inner_preamble : ∀ line ∈ preamble {}, Inner line.words := by
  decide +kernel

lemma begins_constant {name text : String} (h : Begins [name] text) :
    ["static", name] <+: (Text.Line.plain s!"static {text};").words := by
  have hstatic : Begins ["static", name] ("static " ++ text) := h.behind rfl rfl
  exact (hstatic.append ";").plain

lemma begins_dataConstant (k : Nat) (bytes : List UInt8) :
    Begins [(Ref.data k).name] (dataConstant k bytes) :=
  ((begins_word (Ref.data k).isWord_name rfl).append _).append _

lemma begins_typeConstant (n : Nat) (type : FuncType) :
    Begins [(Ref.type n).name] (typeConstant n type) :=
  begins_word (Ref.type n).isWord_name rfl |>.append _ |>.append _ |>.append _

lemma inner_constantLayout {name text : String} (h : Begins [name] text) :
    ∀ line ∈ constantLayout text, Inner line.words := by
  refine List.forall_mem_cons.2 ⟨?_, List.forall_mem_singleton.2 ?_⟩
  · rw [words_literal rfl rfl]
    decide
  · obtain ⟨rest, hrest⟩ := begins_constant h
    rw [← hrest]
    exact inner_of_prefix (List.prefix_append ["static"] _) (by decide) (by decide)

lemma inner_constantsLayout (data : List (List UInt8)) (types : List FuncType) :
    ∀ line ∈ constantsLayout data types, Inner line.words := by
  refine List.forall_mem_append.2 ⟨List.forall_mem_append.2 ⟨List.forall_mem_append.2 ⟨?_, ?_⟩, ?_⟩,
    List.forall_mem_singleton.2 (by decide)⟩
  · have hname : Begins ["NO_DATA"] ("NO_DATA" ++ ": &[u8] = &[]") :=
      begins_word (isWord_literal rfl) rfl
    exact inner_constantLayout hname
  · intro line hline
    obtain ⟨⟨bytes, k⟩, -, hline⟩ := List.mem_flatMap.1 hline
    exact inner_constantLayout (begins_dataConstant k bytes) line hline
  · intro line hline
    obtain ⟨⟨type, n⟩, -, hline⟩ := List.mem_flatMap.1 hline
    exact inner_constantLayout (begins_typeConstant n type) line hline

/-- The line that declares a field begins with its name. -/
lemma words_structField (f : Field) :
    [f.name] <+: (Text.Line.plain s!"{f.name}: {f.type},").words :=
  (((begins_word (isWord_field f) rfl).append f.type).append ",").plain

/-! ### The struct literal -/

/-- A field with a value is no shorthand. -/
lemma words_initialized (f : Field) {value word : String} (h : Begins [word] value) :
    [f.name, word] <+: (Text.Line.plain (FieldInit.text ⟨f, some value⟩)).words := by
  have hbegins : Begins [f.name, word] (f.name ++ ": " ++ value) := h.cons (isWord_field f) rfl rfl
  exact (hbegins.append ",").plain

lemma words_shorthand (f : Field) :
    (Text.Line.plain (FieldInit.text ⟨f, none⟩)).words = [f.name] := by
  change words (strip .code (f.name ++ ",").toList) = _
  rw [String.toList_append, words_word (isWord_field f) (by decide)]
  rfl

/-- What the lines of the struct literal say. -/
lemma words_fieldInit {p : Plan} {f : FieldInit} (h : f ∈ p.fieldInits) :
    [f.field.name] <+: (Text.Line.plain f.text).words ∧
      shorthand (Text.Line.plain f.text).words =
        if f.value = none then some f.field.name else none := by
  have hvalue {f : Field} {value word : String} (hbegins : Begins [word] value) :
      [f.name] <+: (Text.Line.plain (FieldInit.text ⟨f, some value⟩)).words ∧
        shorthand (Text.Line.plain (FieldInit.text ⟨f, some value⟩)).words = none := by
    obtain ⟨rest, hrest⟩ := words_initialized f hbegins
    rw [← hrest]
    exact ⟨List.prefix_append [f.name] (word :: rest), rfl⟩
  rcases List.mem_append.1 h with h | h
  · rcases List.mem_append.1 h with h | h
    · rcases List.mem_append.1 h with h | h
      · -- the reference of the instance to itself
        cases List.mem_singleton.1 h
        have hme : Begins ["me"] ("me" ++ ".clone()") := begins_word (isWord_literal rfl) rfl
        exact hvalue hme
      · -- a field that is bound by the constructor
        obtain ⟨f, -, rfl⟩ := List.mem_map.1 h
        rw [words_shorthand]
        exact ⟨List.prefix_rfl, rfl⟩
    · -- a data segment: the value depends on whether the constructor uses it up
      obtain ⟨⟨segment, k⟩, -, rfl⟩ := List.mem_map.1 h
      have hfirst (passive : Bool) : Begins ["Cell"] (firstData passive k) := by
        unfold firstData
        split
        · have hpassive : Begins ["Cell"] ("Cell" ++ "::new(DATA_") :=
            begins_word (isWord_literal rfl) rfl
          exact (hpassive.append (toString k)).append ")"
        · have hactive : Begins ["Cell"] ("Cell" ++ "::new(NO_DATA)") :=
            begins_word (isWord_literal rfl) rfl
          exact hactive
      exact hvalue (hfirst _)
  · -- an element segment
    obtain ⟨k, -, rfl⟩ := List.mem_map.1 h
    have hcell : Begins ["RefCell"] ("RefCell" ++ "::new(Vec::new())") :=
      begins_word (isWord_literal rfl) rfl
    exact hvalue hcell

/-! ### Steps in front of the literal -/

lemma begins_let (f : Field) {l : List Char} (hl : decide (opens l = true ∧ l ≠ []) = true) :
    Begins ["let", f.name] ("let " ++ f.name ++ String.ofList l) := by
  rw [String.append_assoc]
  exact (begins_word (isWord_field f) hl).behind rfl rfl

lemma isBuild_of_let {f : Field} {line : List String} (h : ["let", f.name] <+: line) :
    isBuild line = false := by
  obtain ⟨rest, rfl⟩ := h
  refine Bool.eq_false_iff.2 fun heq => ?_
  have hname : f.name = "module" := (List.cons.inj (List.cons.inj (eq_of_beq heq)).2).1
  exact Field.name_ne f (by decide) (by decide) hname

/-- A step in front of the literal is one line, which binds the field of the step if it has one. -/
lemma Step.Early.line {step : Step} (h : step.Early) :
    ∃ line, step.layout = [line] ∧ letName line.words = step.bound.map Field.name ∧
      isBuild line.words = false := by
  have hlet {f : Field} {text : String} (hbegins : Begins ["let", f.name] text) :
      letName (Text.Line.plain text).words = some f.name ∧
        isBuild (Text.Line.plain text).words = false := by
    refine ⟨?_, isBuild_of_let hbegins.plain⟩
    obtain ⟨rest, hrest⟩ := hbegins.plain
    rw [← hrest]
    rfl
  cases step with
  | findProvider | resolve | newMemory | newGlobal | newTable =>
    exact ⟨_, rfl, hlet (((begins_let _ rfl).append _).append _)⟩
  | initGlobal index init =>
    -- the only step that binds nothing: it begins with the name of the global
    have hbegins := (((begins_word (isWord_field (.global index)) rfl
      (l := ".borrow_mut().set(".toList)).append (initialValue init)).append ")?;").plain
    have hinner := inner_of_field hbegins
    exact ⟨_, rfl, hinner.letName, hinner.isBuild⟩
  | _ => exact h.elim

/-- The variables that these steps bind. -/
lemma lets_of_early {steps : List Step} (h : ∀ step ∈ steps, step.Early) :
    ((steps.flatMap Step.layout).map Line.words).filterMap letName =
      (steps.filterMap Step.bound).map Field.name := by
  induction steps with
  | nil => rfl
  | cons step steps ih =>
    obtain ⟨hstep, hsteps⟩ := List.forall_mem_cons.1 h
    obtain ⟨line, hlayout, hname, -⟩ := hstep.line
    rw [List.flatMap_cons, hlayout, List.singleton_append, List.map_cons, List.filterMap_cons,
      List.filterMap_cons, hname, ih hsteps]
    cases step.bound <;> rfl

/-! ### Methods -/

/-- A line that begins the method with the name of a reference. -/
lemma begins_method (r : Ref) {stem text : String} {n : Nat} {l : List Char}
    (hname : r.name = stem ++ toString n) (htext : text = "fn " ++ stem)
    (hl : decide (opens l = true ∧ l ≠ []) = true) :
    Begins ["fn", r.name] (text ++ toString n ++ String.ofList l) := by
  have happend : text ++ toString n ++ String.ofList l = "fn " ++ (r.name ++ String.ofList l) := by
    rw [htext, hname]
    simp only [String.append_assoc]
  rw [happend]
  exact (begins_word r.isWord_name hl).behind rfl rfl

lemma definedName_method (f : Lowering.Method) :
    ∃ line ∈ f.layout, definedName line.words = some (Ref.method f.index).name := by
  have hhead : Begins ["fn", (Ref.method f.index).name]
      ("fn fn_" ++ toString f.index ++ "(&self") :=
    begins_method (.method f.index) rfl rfl rfl
  refine ⟨_, List.mem_append_left _ (List.mem_append_left _ (List.mem_cons_of_mem _
    List.mem_cons_self)), ?_⟩
  exact definedName_of_fn ((((hhead.append _).append _).append _).append _).opening

lemma definedName_handle (h : Handle) :
    ∃ line ∈ h.layout, definedName line.words = some (Ref.handle h.func).name := by
  have hhead : Begins ["fn", (Ref.handle h.func).name]
      ("fn ref_fn_" ++ toString h.func ++ "(&self) -> FuncRef \x7b") :=
    begins_method (.handle h.func) rfl rfl rfl
  refine ⟨_, List.mem_append_left _ (List.mem_append_left _ (List.mem_cons_of_mem _
    (List.mem_cons_of_mem _ List.mem_cons_self))), ?_⟩
  exact definedName_of_fn hhead.opening

/-- The line that begins the method of an entry. -/
def Entry.head (e : Entry) : Text.Line :=
  .opening s!"pub fn {e.method}{e.body.texts.1} \x7b"

/-- The line is read as the beginning of the method that is called by the first word of the name. -/
lemma accessorName_entry {e : Entry} {word tail : String} (hmethod : e.method = word ++ tail)
    (hword : IsWord word.toList) (htail : opens tail.toList = true) :
    accessorName e.head.words = some word := by
  obtain ⟨-, rest, hrest⟩ := e.body.head
  have hopens : opens (tail ++ e.body.texts.1).toList = true := by
    rw [String.toList_append, hrest]
    cases hcs : tail.toList with
    | nil => rfl
    | cons c cs => rw [opens_append (List.cons_ne_nil _ _), ← hcs, htail]
  have hname : Begins [word] (word ++ (tail ++ e.body.texts.1)) := by
    refine begins_before hword hopens ?_
    rw [String.toList_append, hrest]
    exact List.append_ne_nil_of_right_ne_nil _ (List.cons_ne_nil _ _)
  have hhead : Begins ["pub", "fn", word] ("pub fn " ++ (word ++ (tail ++ e.body.texts.1))) :=
    hname.behind rfl rfl
  have htext : "pub fn " ++ (word ++ (tail ++ e.body.texts.1)) =
      "pub fn " ++ e.method ++ e.body.texts.1 := by
    simp only [hmethod, String.append_assoc]
  rw [htext] at hhead
  exact accessorName_of_pub (hhead.append _).opening

lemma Entry.clean_head {P : String → Prop} {e : Entry} (hmethod : IsMethodName e.method)
    (hP : ∀ word tail, e.method = word ++ tail → IsWord word.toList →
      opens tail.toList = true → P word) : e.head.Clean P := by
  obtain ⟨hidle, rest, hrest⟩ := e.body.head
  have hname : CitesText P ("pub fn " ++ e.method) :=
    (ShutText.literal rfl).append (hmethod.cites hP)
  have hhead : TailText P ("pub fn " ++ e.method ++ e.body.texts.1) :=
    ⟨_, _, rfl, hname, hidle, by rw [hrest]; rfl, by rw [hrest]; exact List.cons_ne_nil _ _⟩
  exact clean_of_cites (hhead.lit rfl).cites nofun

/-- The lines of an entry cite what its body needs, and the head cites the entry itself. -/
lemma Entry.clean {P : String → Prop} {e : Entry} (hmethod : IsMethodName e.method)
    (hbody : P e.body.ref.name) :
    ∀ line ∈ e.layout, line.Clean fun w => P w ∨ accessorName line.words = some w := by
  have hcited : '\n' ∉ "/ Export \x60".toList ++ (citedName e.name).toList ++ "\x60.".toList := by
    simp only [List.mem_append, not_or]
    exact ⟨⟨by decide, newline_not_mem_citedName e.name⟩, by decide⟩
  have hhead : e.head.Clean fun w => P w ∨ accessorName e.head.words = some w :=
    Entry.clean_head hmethod fun _ _ hsplit hword htail =>
      .inr (accessorName_entry hsplit hword htail)
  have hline : (Text.Line.plain e.body.texts.2).Clean fun w =>
      P w ∨ accessorName (Text.Line.plain e.body.texts.2).words = some w :=
    Line.Clean.mono (clean_of_cites (EntryBody.cites hbody) nofun) fun _ => .inl
  refine List.forall_mem_cons.2 ⟨clean_literal (.literal rfl) nofun, List.forall_mem_cons.2
    ⟨clean_comment ?_ hcited, List.forall_mem_cons.2 ⟨hhead, List.forall_mem_cons.2
      ⟨hline, List.forall_mem_singleton.2 (clean_literal (.literal rfl) nofun)⟩⟩⟩⟩
  simp only [toString_text, String.toList_append]
  rfl

/-! ### Constants -/

lemma definedName_data {data : List (List UInt8)} (types : List FuncType) {k : Nat}
    (h : k < data.length) :
    ∃ line ∈ constantsLayout data types, definedName line.words = some (Ref.data k).name := by
  have hmem : (data[k], k) ∈ data.zipIdx := by
    rw [List.mem_zipIdx_iff_getElem?, List.getElem?_eq_getElem h]
  refine ⟨_, ?_, definedName_of_static (begins_constant (begins_dataConstant k data[k]))⟩
  refine List.mem_append_left _ (List.mem_append_left _ (List.mem_append_right _ ?_))
  exact List.mem_flatMap.2 ⟨_, hmem, List.mem_cons_of_mem _ List.mem_cons_self⟩

lemma definedName_type (data : List (List UInt8)) {types : List FuncType} {n : Nat}
    (h : n < types.length) :
    ∃ line ∈ constantsLayout data types, definedName line.words = some (Ref.type n).name := by
  have hmem : (types[n], n) ∈ types.zipIdx := by
    rw [List.mem_zipIdx_iff_getElem?, List.getElem?_eq_getElem h]
  refine ⟨_, ?_, definedName_of_static (begins_constant (begins_typeConstant n types[n]))⟩
  refine List.mem_append_left _ (List.mem_append_right _ ?_)
  exact List.mem_flatMap.2 ⟨_, hmem, List.mem_cons_of_mem _ List.mem_cons_self⟩

end WasmAot.Artifact
