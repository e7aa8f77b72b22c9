/-
# The names of the methods

Every export gets a method, and the methods share one name space with each other, with the methods
for the functions and with those that are always there.  This file shows that their names keep apart:
no two are the same, and none is a name that is used otherwise.

Each is an identifier, too, unless the counter for the numbers behind the names has gone below zero.
Up to 2 ^ 31 - 7 exports this happens only if a second function asks for `fn` or a second one for
`ref_fn`, since all numbers from zero on are set aside behind these two.  A counter that does not go
on below zero ends the program there, and no names come out.

How a name is put into snake case plays no part in this.  Whatever text comes out of it, the name
that an export asks for is an identifier (`isLegal_candidate`), and drawing from a pool gives a name
that is free (`of_draw`).  That names are distinct even without the mark of raw identifiers needs
both: a keyword behind the mark could meet the keyword itself, which is no identifier and is never
drawn.
-/
import WasmAot.Proofs.Naming.FreeNumbers
import WasmAot.Release

namespace WasmAot.Artifact

open Text

/-! ### Identifiers of the emitted language -/

/-- The words with a meaning in the emitted language, and those set aside for later. -/
def languageWords : List String :=
  ["as", "async", "await", "break", "const", "continue", "crate", "dyn", "else", "enum", "extern",
    "false", "fn", "for", "if", "impl", "in", "let", "loop", "match", "mod", "move", "mut", "pub",
    "ref", "return", "self", "Self", "static", "struct", "super", "trait", "true", "type", "unsafe",
    "use", "where", "while"] ++
  ["abstract", "become", "box", "do", "final", "gen", "macro", "override", "priv", "try", "typeof",
    "unsized", "virtual", "yield"]

/-- The words that stand for places in the tree of modules; they stay so behind the mark of raw
identifiers. -/
def pathWords : List String :=
  ["crate", "self", "super", "Self"]

/-- The text is spelled like an identifier: letters, digits and underscores, not a digit in front, and
not underscores alone. -/
structure IsSpelled (cs : List Char) : Prop extends IsWord cs where
  first : ∀ c ∈ cs.head?, isAsciiDigit c = false
  visible : ∃ c ∈ cs, c ≠ '_'

/-- The name is an identifier of the emitted language: a word without a meaning as it is, or one with
a meaning behind the mark of raw identifiers, if it may stand there. -/
def IsLegal (name : String) : Prop :=
  ∃ word : String, IsSpelled word.toList ∧
    (name = word ∧ word ∉ languageWords ∨
      name = "r#" ++ word ∧ word ∈ languageWords ∧ word ∉ pathWords)

lemma mem_languageWords_iff {word : String} :
    word ∈ languageWords ↔ word ∈ reservedPaths ∨ word ∈ keywords := by
  have hknown : ∀ word ∈ languageWords, word ∈ reservedPaths ∨ word ∈ keywords := by
    decide +kernel
  have hpaths : ∀ word ∈ reservedPaths, word ∈ languageWords := by decide +kernel
  have hkeywords : ∀ word ∈ keywords, word ∈ languageWords := by decide +kernel
  exact ⟨hknown word, fun h => h.elim (hpaths word) (hkeywords word)⟩

lemma mem_reservedPaths {word : String} (h : word ∈ pathWords) : word ∈ reservedPaths := by
  have hall : ∀ word ∈ pathWords, word ∈ reservedPaths := by decide +kernel
  exact hall word h

lemma not_mem_languageWords {word : String} (h : '_' ∈ word.toList) : word ∉ languageWords := by
  have hall : ∀ word ∈ languageWords, '_' ∉ word.toList := by decide +kernel
  exact fun hword => hall word hword h

/-- What stands behind an identifier changes nothing about its beginning. -/
lemma IsSpelled.append {x y : List Char} (hx : IsSpelled x) (hy : ∀ c ∈ y, isWordChar c = true) :
    IsSpelled (x ++ y) := by
  obtain ⟨c, hc, hvisible⟩ := hx.visible
  refine { isWord_append hx.toIsWord hy with first := ?_, visible := ?_ }
  · rw [List.head?_append_of_ne_nil _ hx.nonempty]
    exact hx.first
  · exact ⟨c, List.mem_append_left _ hc, hvisible⟩

/-- A text with an underscore is no word with a meaning. -/
lemma IsSpelled.isLegal {name : String} (h : IsSpelled name.toList) (hmem : '_' ∈ name.toList) :
    IsLegal name :=
  ⟨name, h, .inl ⟨rfl, not_mem_languageWords hmem⟩⟩

/-! ### Without the mark of raw identifiers -/

lemma bareName_of_isWord {name : String} (h : IsWord name.toList) : bareName name = name := by
  rw [bareName, stripRaw_of_isWord h, String.ofList_toList]

lemma bareName_raw {word : String} (h : IsWord word.toList) : bareName ("r#" ++ word) = word := by
  have hraw : stripRaw ("r#" ++ word).toList = stripRaw word.toList := by
    rw [String.toList_append]
    rfl
  rw [bareName, hraw, stripRaw_of_isWord h, String.ofList_toList]

/-- A name with a number below zero; it is none of the emitted language. -/
def IsWrapped (name : String) : Prop :=
  ∃ (base : String) (n : Int), IsSpelled base.toList ∧ n < 0 ∧ name = NamePool.numbered base n

lemma IsLegal.isSpelled_bareName {name : String} (h : IsLegal name) :
    IsSpelled (bareName name).toList := by
  obtain ⟨word, hspelled, ⟨rfl, -⟩ | ⟨rfl, -⟩⟩ := h
  · rwa [bareName_of_isWord hspelled.toIsWord]
  · rwa [bareName_raw hspelled.toIsWord]

/-- Behind the mark stands a word with a meaning, which is no identifier without the mark. -/
lemma IsLegal.eq_of_bareName_eq {x y : String} (hx : IsLegal x) (hy : IsLegal y)
    (h : bareName x = bareName y) : x = y := by
  obtain ⟨v, hv, ⟨rfl, hfree⟩ | ⟨rfl, hmeaning, -⟩⟩ := hx <;>
    obtain ⟨w, hw, ⟨rfl, hfree'⟩ | ⟨rfl, hmeaning', -⟩⟩ := hy
  · rwa [bareName_of_isWord hv.toIsWord, bareName_of_isWord hw.toIsWord] at h
  · rw [bareName_of_isWord hv.toIsWord, bareName_raw hw.toIsWord] at h
    exact absurd (h ▸ hmeaning') hfree
  · rw [bareName_raw hv.toIsWord, bareName_of_isWord hw.toIsWord] at h
    exact absurd (h ▸ hmeaning) hfree'
  · rw [bareName_raw hv.toIsWord, bareName_raw hw.toIsWord] at h
    rw [h]

lemma IsWrapped.hyphen_mem {name : String} (h : IsWrapped name) : '-' ∈ name.toList := by
  obtain ⟨base, n, -, hn, rfl⟩ := h
  obtain ⟨k, rfl⟩ := Int.eq_negSucc_of_lt_zero hn
  rw [toList_numbered, toList_negative]
  simp

lemma IsWrapped.bareName_eq {name : String} (h : IsWrapped name) : bareName name = name := by
  obtain ⟨base, n, hbase, hn, rfl⟩ := h
  obtain ⟨k, rfl⟩ := Int.eq_negSucc_of_lt_zero hn
  have hnumber : '#' ∉ (toString (k + 1)).toList := fun hmem =>
    absurd ((digits_toString (k + 1)).2 '#' hmem) (by decide)
  have hmark : '#' ∉ (NamePool.numbered base (.negSucc k)).toList := by
    rw [toList_numbered, toList_negative, List.mem_append, List.mem_cons, List.mem_cons]
    rintro (hmem | hmem | hmem | hmem)
    · exact not_mem_of_isWord hbase.toIsWord rfl hmem
    · cases hmem
    · cases hmem
    · exact hnumber hmem
  rw [bareName, stripRaw_of_not_mem hmark, String.ofList_toList]

lemma IsLegal.bareName_ne_of_isWrapped {x y : String} (hx : IsLegal x) (hy : IsWrapped y) :
    bareName x ≠ bareName y := by
  intro heq
  rw [hy.bareName_eq] at heq
  exact not_mem_of_isWord hx.isSpelled_bareName.toIsWord rfl (heq ▸ hy.hyphen_mem)

lemma IsWrapped.not_isLegal {name : String} (h : IsWrapped name) : ¬ IsLegal name :=
  fun hlegal => hlegal.bareName_ne_of_isWrapped h rfl

/-- Names that can be drawn are still different without the mark. -/
lemma eq_of_bareName_eq {x y : String} (hx : IsLegal x ∨ IsWrapped x)
    (hy : IsLegal y ∨ IsWrapped y) (h : bareName x = bareName y) : x = y := by
  rcases hx with hx | hx <;> rcases hy with hy | hy
  · exact hx.eq_of_bareName_eq hy h
  · exact absurd h (hx.bareName_ne_of_isWrapped hy)
  · exact absurd h.symm (hy.bareName_ne_of_isWrapped hx)
  · rwa [hx.bareName_eq, hy.bareName_eq] at h

/-! ### The name that an export asks for -/

/-- An identifier is a text with a letter or a digit in it; if a digit is in front, an underscore
comes before it. -/
lemma identChars_cases (snake : List Char) :
    ∃ chars : List Char, (∃ c ∈ chars, c ≠ '_') ∧
      (identChars snake = '_' :: chars ∨
        identChars snake = chars ∧ ∀ c ∈ chars.head?, isAsciiDigit c = false) := by
  -- `chars` is the text before its first character is looked at
  obtain ⟨chars, hchars⟩ : ∃ chars, chars =
      if (snake.map fun c => if isAsciiAlphanumeric c then c else '_').all (· == '_')
        then placeholder else snake.map fun c => if isAsciiAlphanumeric c then c else '_' := ⟨_, rfl⟩
  refine ⟨chars, ?_, ?_⟩
  · rw [hchars]
    split
    · exact ⟨'e', by decide, by decide⟩
    · rename_i hall
      simpa using hall
  · unfold identChars
    dsimp only
    rw [← hchars]
    cases chars with
    | nil => exact .inr ⟨rfl, nofun⟩
    | cons c rest =>
      dsimp only
      split
      · exact .inl rfl
      · rename_i hdigit
        exact .inr ⟨rfl, by simpa using hdigit⟩

lemma isSpelled_identChars (snake : List Char) : IsSpelled (identChars snake) := by
  refine { isWord_identChars snake with first := ?_, visible := ?_ } <;>
    obtain ⟨chars, ⟨c, hc, hne⟩, heq | ⟨heq, hfirst⟩⟩ := identChars_cases snake <;> rw [heq]
  · simp [isAsciiDigit]
  · exact hfirst
  · exact ⟨c, List.mem_cons_of_mem _ hc, hne⟩
  · exact ⟨c, hc, hne⟩

lemma isSpelled_plainIdent (snakeCase : String → String) (name : String) :
    IsSpelled (plainIdent snakeCase name).toList := by
  rw [plainIdent, String.toList_ofList]
  exact isSpelled_identChars _

lemma isLegal_escapeKeyword {ident : String} (h : IsSpelled ident.toList) :
    IsLegal (escapeKeyword ident) := by
  unfold escapeKeyword
  split
  · have hspelled : IsSpelled (ident ++ "_").toList := by
      rw [String.toList_append]
      exact h.append (by decide)
    exact hspelled.isLegal (by simp)
  · rename_i hpath
    rw [List.contains_iff_mem] at hpath
    split
    · rename_i hkeyword
      rw [List.contains_iff_mem] at hkeyword
      have hmark : ident ∉ pathWords := fun hmem => hpath (mem_reservedPaths hmem)
      exact ⟨ident, h, .inr ⟨rfl, mem_languageWords_iff.2 (.inr hkeyword), hmark⟩⟩
    · rename_i hkeyword
      rw [List.contains_iff_mem] at hkeyword
      refine ⟨ident, h, .inl ⟨rfl, fun hword => ?_⟩⟩
      exact (mem_languageWords_iff.1 hword).elim hpath hkeyword

/-- Whatever its name is in snake case, an export asks for an identifier. -/
lemma isLegal_candidate (snakeCase : String → String) (e : Export) :
    IsLegal (candidate snakeCase e) := by
  have hident := isSpelled_plainIdent snakeCase e.name
  have hprefixed {front : String} (hfront : IsSpelled front.toList) (hmem : '_' ∈ front.toList) :
      IsLegal (front ++ plainIdent snakeCase e.name) := by
    refine IsSpelled.isLegal ?_ ?_
    · rw [String.toList_append]
      exact hfront.append hident.chars
    · rw [String.toList_append]
      exact List.mem_append_left _ hmem
  unfold candidate
  split
  · exact isLegal_escapeKeyword hident
  · exact hprefixed ⟨⟨by decide, by decide⟩, by decide, 'm', by decide, by decide⟩ (by decide)
  · exact hprefixed ⟨⟨by decide, by decide⟩, by decide, 't', by decide, by decide⟩ (by decide)
  · exact hprefixed ⟨⟨by decide, by decide⟩, by decide, 'g', by decide, by decide⟩ (by decide)

/-! ### Drawing a name -/

/-- The methods that are always there: the constructor and the lookups. -/
def fixedMethods : List String :=
  ["new", "func", "memory", "table", "global"]

/-- The name is used otherwise: for a method that is always there, or for a function of the module or
a reference to it. -/
def IsInternal (name : String) : Prop :=
  name ∈ fixedMethods ∨
    ∃ n : Nat, name = "fn_" ++ toString n ∨ name = "ref_fn_" ++ toString n

/-- What is used otherwise is taken from the start. -/
lemma isTaken_of_isInternal {name : String} (h : IsInternal name) :
    NamePool.start.isTaken name = true := by
  rw [NamePool.isTaken, Bool.or_eq_true]
  obtain hfixed | ⟨n, hname⟩ := h
  · exact .inl (List.contains_iff_mem.2 hfixed)
  · obtain ⟨hne, hdigits⟩ := digits_toString n
    refine .inr (isReserved_iff.2 ⟨_, hne, hdigits, ?_⟩)
    rcases hname with rfl | rfl
    · exact .inl String.toList_append
    · exact .inr String.toList_append

/-- No word with a meaning is used as a name. -/
lemma not_isInternal_of_mem_languageWords {word : String} (h : word ∈ languageWords) :
    ¬ IsInternal word := by
  have hfixed : ∀ word ∈ languageWords, word ∉ fixedMethods := by decide +kernel
  rintro (hmem | ⟨n, rfl | rfl⟩)
  · exact hfixed word h hmem
  · exact not_mem_languageWords (by simp) h
  · exact not_mem_languageWords (by simp) h

lemma not_isInternal_bareName {name : String} (h : IsLegal name ∨ IsWrapped name)
    (hname : ¬ IsInternal name) : ¬ IsInternal (bareName name) := by
  obtain ⟨word, hspelled, ⟨rfl, -⟩ | ⟨rfl, hword, -⟩⟩ | hwrapped := h
  · rwa [bareName_of_isWord hspelled.toIsWord]
  · rw [bareName_raw hspelled.toIsWord]
    exact not_isInternal_of_mem_languageWords hword
  · rwa [hwrapped.bareName_eq]

lemma isLegal_numbered {base : String} (h : IsSpelled base.toList) (n : Nat) :
    IsLegal (NamePool.numbered base n) := by
  have htext : (NamePool.numbered base n).toList = base.toList ++ ("_" ++ toString n).toList := by
    rw [toList_numbered, String.toList_append]
    rfl
  have hnumber : ∀ c ∈ ("_" ++ toString n).toList, isWordChar c = true := by
    have hword : IsWord ("_".toList ++ n.repr.toList) := isWord_numbered (by decide) n
    rw [String.toList_append]
    exact hword.chars
  refine IsSpelled.isLegal (htext ▸ h.append hnumber) ?_
  rw [htext]
  exact List.mem_append_right _ (by simp)

section

variable {c : Counter} {pool pool' : NamePool} {asked name : String}

lemma isLegal_or_isWrapped_of_draw (hasked : IsLegal asked)
    (h : pool.draw c asked = .ok (name, pool')) : IsLegal name ∨ IsWrapped name := by
  obtain ⟨-, -, rfl | ⟨n, rfl⟩⟩ := of_draw h
  · exact .inl hasked
  · have hbase := hasked.isSpelled_bareName
    cases n with
    | ofNat n => exact .inl (isLegal_numbered hbase n)
    | negSucc n => exact .inr ⟨_, _, hbase, Int.negSucc_lt_zero n, rfl⟩

lemma isLegal_of_draw (hover : c.overflow = .stops) (hasked : IsLegal asked)
    (h : pool.draw c asked = .ok (name, pool')) : IsLegal name := by
  obtain ⟨-, ⟨-, rfl⟩ | ⟨-, hfound⟩⟩ := of_draw_ok h
  · exact hasked
  · obtain ⟨n, rfl⟩ := NamePool.nonneg_of_firstFree hover (by decide) hfound
    exact isLegal_numbered hasked.isSpelled_bareName n

/-- The name cannot be drawn, with or without a number from zero on. -/
def NamePool.IsLost (pool : NamePool) (asked : String) : Prop :=
  pool.isTaken asked = true ∧ bareName asked ∈ reservedBases

/-- A name that is not lost is drawn as an identifier.  For a name that is lost the program stops, or
the name that is drawn is none. -/
lemma draw_cases (platform : Platform) (pool : NamePool) (hasked : IsLegal asked)
    (hroom : pool.used.length + 3 ≤ 2 ^ 31) :
    (¬ pool.IsLost asked ∧
      ∃ name pool', pool.draw (nameCounter platform) asked = .ok (name, pool') ∧ IsLegal name) ∨
    pool.IsLost asked ∧
      (platform.overflow = .stops ∧
          pool.draw (nameCounter platform) asked = .error .overflow ∨
        platform.overflow = .wraps ∧
          ∃ name pool', pool.draw (nameCounter platform) asked = .ok (name, pool') ∧
            ¬ IsLegal name) := by
  -- so the counter has room for all names in use
  have hlargest : (nameCounter platform).largest = 2 ^ 31 - 1 := rfl
  have hcard := List.toFinset_card_le pool.used
  by_cases hbase : bareName asked ∈ reservedBases
  · cases htaken : pool.isTaken asked with
    | false =>
      have hkept : ¬ pool.IsLost asked := fun hlost => by cases htaken.symm.trans hlost.1
      exact .inl ⟨hkept, _, _, draw_of_free htaken, hasked⟩
    | true =>
      refine .inr ⟨⟨htaken, hbase⟩, ?_⟩
      cases hover : platform.overflow with
      | stops =>
        refine .inl ⟨rfl, ?_⟩
        rw [draw_of_reserved (by decide : 3 ≤ 32) htaken hbase]
        dsimp only [nameCounter]
        rw [hover]
      | wraps =>
        obtain ⟨n, hn, hdraw⟩ := draw_of_wraps (c := nameCounter platform) hover
          (by decide : 3 ≤ 32) htaken hbase (by omega)
        have hwrapped : IsWrapped (NamePool.numbered (bareName asked) n) :=
          ⟨_, n, hasked.isSpelled_bareName, hn, rfl⟩
        exact .inr ⟨rfl, _, _, hdraw, hwrapped.not_isLegal⟩
  · refine .inl ⟨fun hlost => hbase hlost.2, ?_⟩
    cases htaken : pool.isTaken asked with
    | false => exact ⟨_, _, draw_of_free htaken, hasked⟩
    | true =>
      have hcounter : pool.used.toFinset.card + 2 ≤ (nameCounter platform).largest := by omega
      obtain ⟨n, hfound, -⟩ := NamePool.firstFree_eq_least hbase hcounter
      have hdraw := draw_of_taken (c := nameCounter platform) htaken
      rw [hfound] at hdraw
      exact ⟨_, _, hdraw, isLegal_numbered hasked.isSpelled_bareName n⟩

end

/-! ### The names of all methods -/

/-- The export that the method is for. -/
def NamedExport.toExport (e : NamedExport) : Export :=
  { name := e.name, kind := e.kind, index := e.index }

/-- The methods are those of the exports, one for each, and their names keep apart.  Each is an
identifier or has a number below zero. -/
structure MethodsApart (exports : List Export) (named : List NamedExport) : Prop where
  /-- the method at each place is for the export there -/
  kept : named.map NamedExport.toExport = exports
  drawn : ∀ e ∈ named, IsLegal e.method ∨ IsWrapped e.method
  distinct : (named.map fun e => bareName e.method).Nodup
  apart : ∀ e ∈ named, ¬ IsInternal e.method ∧ ¬ IsInternal (bareName e.method)

/-- Moreover the names can stand side by side in a source text. -/
structure MethodsNamed (exports : List Export) (named : List NamedExport) : Prop
    extends MethodsApart exports named where
  legal : ∀ e ∈ named, IsLegal e.method

section

variable {platform : Platform} {m : Module} {pool : NamePool}

/-- Each method is for its export. -/
lemma map_toExport {exports : List Export} {named : List NamedExport}
    (h : assignNames platform m pool exports = .ok named) :
    named.map NamedExport.toExport = exports := by
  induction exports generalizing pool named with
  | nil =>
    cases h
    rfl
  | cons e rest ih =>
    obtain ⟨-, method, pool', items, -, hrest, rfl⟩ := of_assignNames_cons h
    rw [List.map_cons, ih hrest]
    rfl

/-- Each name is new to the pool from which it is drawn, and later pools hold the earlier names. -/
lemma fresh_of_assignNames {exports : List Export} {named : List NamedExport}
    (h : assignNames platform m pool exports = .ok named) :
    (∀ e ∈ named, pool.isTaken e.method = false) ∧ (named.map NamedExport.method).Nodup := by
  induction exports generalizing pool named with
  | nil =>
    cases h
    exact ⟨List.forall_mem_nil _, List.nodup_nil⟩
  | cons e rest ih =>
    obtain ⟨-, method, pool', items, hdraw, hrest, rfl⟩ := of_assignNames_cons h
    obtain ⟨hfree, hused, -⟩ := of_draw hdraw
    obtain ⟨hitems, hnodup⟩ := ih hrest
    have hlater : ∀ item ∈ items, item.method ≠ method ∧ pool.isTaken item.method = false := by
      intro item hitem
      have hnot := hitems item hitem
      simp only [NamePool.isTaken, hused, List.contains_cons, Bool.or_eq_false_iff,
        beq_eq_false_iff_ne] at hnot ⊢
      exact ⟨hnot.1.1, hnot.1.2, hnot.2⟩
    refine ⟨List.forall_mem_cons.2 ⟨hfree, fun item hitem => (hlater item hitem).2⟩, ?_⟩
    refine List.nodup_cons.2 ⟨fun hmem => ?_, hnodup⟩
    obtain ⟨item, hitem, hmethod⟩ := List.mem_map.1 hmem
    exact (hlater item hitem).1 hmethod

/-- What holds of every name that is drawn for an export holds of every method. -/
lemma forall_method {P : String → Prop}
    (hdraw : ∀ {pool pool' : NamePool} {e : Export} {method : String},
      pool.draw (nameCounter platform) (candidate platform.snakeCase e) = .ok (method, pool') →
        P method)
    {exports : List Export} {named : List NamedExport}
    (h : assignNames platform m pool exports = .ok named) : ∀ e ∈ named, P e.method := by
  induction exports generalizing pool named with
  | nil =>
    cases h
    exact List.forall_mem_nil _
  | cons e rest ih =>
    obtain ⟨-, method, pool', items, hmethod, hrest, rfl⟩ := of_assignNames_cons h
    exact List.forall_mem_cons.2 ⟨hdraw hmethod, ih hrest⟩

lemma methodsApart_of_assignNames {exports : List Export} {named : List NamedExport}
    (h : assignNames platform m .start exports = .ok named) : MethodsApart exports named := by
  have hdrawn : ∀ e ∈ named, IsLegal e.method ∨ IsWrapped e.method :=
    forall_method (isLegal_or_isWrapped_of_draw (isLegal_candidate _ _)) h
  obtain ⟨hfree, hnodup⟩ := fresh_of_assignNames h
  refine ⟨map_toExport h, hdrawn, ?_, fun e he => ?_⟩
  · refine List.Nodup.map_on (fun x hx y hy heq => ?_) (List.Nodup.of_map _ hnodup)
    have hmethod := eq_of_bareName_eq (hdrawn x hx) (hdrawn y hy) heq
    exact List.inj_on_of_nodup_map hnodup hx hy hmethod
  · have hname : ¬ IsInternal e.method := by
      intro hinternal
      have htaken := isTaken_of_isInternal hinternal
      rw [hfree e he] at htaken
      cases htaken
    exact ⟨hname, not_isInternal_bareName (hdrawn e he) hname⟩

end

/-! ### Names that are asked for twice -/

/-- The export is a function that asks for the word. -/
def asksFor (snakeCase : String → String) (word : String) (e : Export) : Bool :=
  e.kind = .func && plainIdent snakeCase e.name = word

/-- At most one function asks for `fn`, and one for `ref_fn`. -/
def AsksOnce (snakeCase : String → String) (exports : List Export) : Prop :=
  ∀ word ∈ reservedBases, exports.countP (asksFor snakeCase word) ≤ 1

instance (snakeCase : String → String) (exports : List Export) :
    Decidable (AsksOnce snakeCase exports) :=
  inferInstanceAs (Decidable (∀ word ∈ reservedBases, _))

/-- How often the word has been given out or is still asked for. -/
def asks (snakeCase : String → String) (pool : NamePool) (word : String) (exports : List Export) :
    Nat :=
  pool.used.count (escapeKeyword word) + exports.countP (asksFor snakeCase word)

/-- No word has been given out that is still asked for, and none is asked for twice. -/
def AsksWithin (snakeCase : String → String) (pool : NamePool) (exports : List Export) : Prop :=
  ∀ word ∈ reservedBases, asks snakeCase pool word exports ≤ 1

section

variable {snakeCase : String → String} {word : String}

lemma bareName_escapeKeyword {ident : String} (h : IsWord ident.toList) :
    bareName (escapeKeyword ident) = if ident ∈ reservedPaths then ident ++ "_" else ident := by
  simp only [escapeKeyword, List.contains_iff_mem]
  split
  · refine bareName_of_isWord ?_
    rw [String.toList_append]
    exact isWord_append h (by decide)
  · split
    · exact bareName_raw h
    · exact bareName_of_isWord h

/-- Only a function asks for one of these words, behind its mark if it has one. -/
lemma candidate_eq_iff (snakeCase : String → String) (hword : word ∈ reservedBases) (e : Export) :
    (candidate snakeCase e = escapeKeyword word ↔ asksFor snakeCase word e = true) ∧
      (bareName (candidate snakeCase e) = word ↔ asksFor snakeCase word e = true) := by
  have hasked : asksFor snakeCase word e = true → candidate snakeCase e = escapeKeyword word := by
    intro hask
    obtain ⟨hkind, hident⟩ : e.kind = .func ∧ plainIdent snakeCase e.name = word := by
      simpa [asksFor] using hask
    rw [candidate, hkind]
    exact congrArg escapeKeyword hident
  have hbare : candidate snakeCase e = escapeKeyword word →
      bareName (candidate snakeCase e) = word := by
    have hall : ∀ word ∈ reservedBases, bareName (escapeKeyword word) = word := by decide +kernel
    intro heq
    rw [heq, hall word hword]
  have hasks : bareName (candidate snakeCase e) = word → asksFor snakeCase word e = true := by
    have hident := isWord_plainIdent snakeCase e.name
    -- the other kinds put a word in front, which begins with another letter
    have hfront {front : String} (hword' : IsWord front.toList)
        (hhead : ∀ word ∈ reservedBases, front.toList.head? ≠ word.toList.head?) :
        bareName (front ++ plainIdent snakeCase e.name) ≠ word := by
      rw [bareName_of_isWord (by rw [String.toList_append]; exact isWord_append hword' hident.chars)]
      rintro rfl
      refine hhead _ hword ?_
      rw [String.toList_append, List.head?_append_of_ne_nil _ hword'.nonempty]
    intro heq
    unfold candidate at heq
    split at heq
    · rename_i hkind
      rw [methodName, bareName_escapeKeyword hident] at heq
      split at heq
      · rename_i hpath
        have hall : ∀ path ∈ reservedPaths, path ++ "_" ∉ reservedBases := by decide +kernel
        exact absurd (heq ▸ hword) (hall _ hpath)
      · simp [asksFor, hkind, heq]
    · exact absurd heq (hfront ⟨by decide, by decide⟩ (by decide +kernel))
    · exact absurd heq (hfront ⟨by decide, by decide⟩ (by decide +kernel))
    · exact absurd heq (hfront ⟨by decide, by decide⟩ (by decide +kernel))
  exact ⟨⟨fun heq => hasks (hbare heq), hasked⟩, ⟨hasks, fun hask => hbare (hasked hask)⟩⟩

/-- A name with a number is none of these words. -/
lemma numbered_ne_escapeKeyword (hword : word ∈ reservedBases) (base : String) (n : Int) :
    NamePool.numbered base n ≠ escapeKeyword word := by
  intro heq
  have htext := congrArg String.toList heq
  rw [toList_numbered] at htext
  -- the word `fn` has no underscore behind its mark, and behind that of `ref_fn` stands no number
  rcases List.mem_pair.1 hword with rfl | rfl
  · have hmem : '_' ∈ (escapeKeyword "fn").toList := htext ▸ by simp
    exact absurd hmem (by decide)
  · have hsplit : (escapeKeyword "ref_fn").toList = "ref".toList ++ '_' :: "fn".toList := by decide
    obtain ⟨-, hnumber⟩ := eq_of_append_underscore (underscore_not_mem_toString n)
      (by decide) (htext.trans hsplit)
    cases n with
    | ofNat n => exact absurd ((digits_toString n).2 'f' (hnumber ▸ by decide)) (by decide)
    | negSucc n =>
      rw [toList_negative] at hnumber
      exact absurd (List.cons.inj hnumber).1 (by decide)

variable {c : Counter} {pool pool' : NamePool} {e : Export} {method : String}

/-- A word that is not lost is given out once it is drawn. -/
lemma asks_of_draw (hword : word ∈ reservedBases)
    (hdraw : pool.draw c (candidate snakeCase e) = .ok (method, pool'))
    (hkept : ¬ pool.IsLost (candidate snakeCase e)) (rest : List Export) :
    asks snakeCase pool' word rest = asks snakeCase pool word (e :: rest) := by
  obtain ⟨hcandidate, hbare⟩ := candidate_eq_iff snakeCase hword e
  obtain ⟨hused, hdrawn⟩ := of_draw_ok hdraw
  have hsame : method = escapeKeyword word ↔ asksFor snakeCase word e = true := by
    rcases hdrawn with ⟨-, rfl⟩ | ⟨htaken, hfound⟩
    · exact hcandidate
    · obtain ⟨-, n, rfl⟩ := of_firstFree hfound
      exact iff_of_false (numbered_ne_escapeKeyword hword _ n) fun hask =>
        hkept ⟨htaken, (hbare.2 hask).symm ▸ hword⟩
  rw [asks, asks, hused, List.count_cons, List.countP_cons]
  simp only [beq_iff_eq, hsame]
  omega

lemma two_le_asks (hlost : pool.IsLost (candidate snakeCase e)) (rest : List Export) :
    ∃ word ∈ reservedBases, 2 ≤ asks snakeCase pool word (e :: rest) := by
  obtain ⟨htaken, hword⟩ := hlost
  obtain ⟨hcandidate, hbare⟩ := candidate_eq_iff snakeCase hword e
  have hask := hbare.1 rfl
  have hfree : ∀ word ∈ reservedBases, isReserved (escapeKeyword word) = false := by decide +kernel
  rw [hcandidate.2 hask, NamePool.isTaken, hfree _ hword, Bool.or_false,
    List.contains_iff_mem, ← List.one_le_count_iff] at htaken
  refine ⟨_, hword, ?_⟩
  rw [asks, List.countP_cons_of_pos hask]
  omega

lemma asksWithin_iff_of_draw (hdraw : pool.draw c (candidate snakeCase e) = .ok (method, pool'))
    (hkept : ¬ pool.IsLost (candidate snakeCase e)) (rest : List Export) :
    AsksWithin snakeCase pool' rest ↔ AsksWithin snakeCase pool (e :: rest) :=
  forall₂_congr fun _ hword => by rw [asks_of_draw hword hdraw hkept]

lemma not_asksWithin (hlost : pool.IsLost (candidate snakeCase e)) (rest : List Export) :
    ¬ AsksWithin snakeCase pool (e :: rest) := by
  obtain ⟨word, hword, htwo⟩ := two_le_asks hlost rest
  intro hwithin
  exact absurd (hwithin word hword) (by omega)

lemma asksWithin_nil (hnodup : pool.used.Nodup) : AsksWithin snakeCase pool [] :=
  fun _ _ => List.nodup_iff_count_le_one.1 hnodup _

lemma asksWithin_start_iff {exports : List Export} :
    AsksWithin snakeCase .start exports ↔ AsksOnce snakeCase exports := by
  have hcount : ∀ word ∈ reservedBases, NamePool.start.used.count (escapeKeyword word) = 0 := by
    decide +kernel
  refine forall₂_congr fun word hword => ?_
  rw [asks, hcount word hword, Nat.zero_add]

lemma length_used_of_draw {asked : String} (hdraw : pool.draw c asked = .ok (method, pool')) :
    pool'.used.length = pool.used.length + 1 := by
  rw [(of_draw hdraw).2.1]
  rfl

lemma nodup_of_draw {asked : String} (hdraw : pool.draw c asked = .ok (method, pool'))
    (hnodup : pool.used.Nodup) : pool'.used.Nodup := by
  obtain ⟨hfree, hused, -⟩ := of_draw hdraw
  rw [NamePool.isTaken, Bool.or_eq_false_iff, ← Bool.not_eq_true, List.contains_iff_mem] at hfree
  rw [hused]
  exact List.nodup_cons.2 ⟨hfree.1, hnodup⟩

end

section

variable {platform : Platform} {m : Module} {pool : NamePool}

/-- All names are identifiers exactly if none is lost on the way. -/
lemma forall_isLegal_iff {exports : List Export} {named : List NamedExport}
    (hnodup : pool.used.Nodup) (hroom : pool.used.length + exports.length + 2 ≤ 2 ^ 31)
    (h : assignNames platform m pool exports = .ok named) :
    (∀ e ∈ named, IsLegal e.method) ↔ AsksWithin platform.snakeCase pool exports := by
  induction exports generalizing pool named with
  | nil =>
    cases h
    exact iff_of_true (List.forall_mem_nil _) (asksWithin_nil hnodup)
  | cons e rest ih =>
    rw [List.length_cons] at hroom
    obtain ⟨-, method, pool', items, hdraw, hrest, rfl⟩ := of_assignNames_cons h
    have hused := length_used_of_draw hdraw
    have hitems := ih (nodup_of_draw hdraw hnodup) (by omega) hrest
    rw [List.forall_mem_cons]
    -- a name that is not lost leaves the condition to the rest; one that is lost spoils both sides
    obtain ⟨hkept, name, _, hdrawn, hlegal⟩ | ⟨hlost, ⟨-, hstops⟩ | ⟨-, name, _, hdrawn, hillegal⟩⟩ :=
      draw_cases platform pool (isLegal_candidate platform.snakeCase e) (by omega)
    · cases hdraw.symm.trans hdrawn
      rw [← asksWithin_iff_of_draw hdraw hkept rest, ← hitems]
      exact and_iff_right hlegal
    · cases hdraw.symm.trans hstops
    · cases hdraw.symm.trans hdrawn
      exact iff_of_false (fun hall => hillegal hall.1) (not_asksWithin hlost rest)

lemma assignNames_cons_ok {e : Export} {rest : List Export} {method : String} {pool' : NamePool}
    {items : List NamedExport} (hindex : e.index < m.count e.kind)
    (hdraw : pool.draw (nameCounter platform) (candidate platform.snakeCase e) = .ok (method, pool'))
    (hrest : assignNames platform m pool' rest = .ok items) :
    assignNames platform m pool (e :: rest) =
      .ok ({ name := e.name, method, kind := e.kind, index := e.index } :: items) := by
  rw [assignNames, if_pos hindex, hdraw]
  dsimp only
  rw [hrest]
  rfl

/-- Names come out exactly if all indices are in range, and none is lost if that stops the program. -/
lemma exists_assignNames_iff {exports : List Export} (hnodup : pool.used.Nodup)
    (hroom : pool.used.length + exports.length + 2 ≤ 2 ^ 31) :
    (∃ named, assignNames platform m pool exports = .ok named) ↔
      (∀ e ∈ exports, e.index < m.count e.kind) ∧
        (platform.overflow = .stops → AsksWithin platform.snakeCase pool exports) := by
  induction exports generalizing pool with
  | nil =>
    exact iff_of_true ⟨[], rfl⟩ ⟨List.forall_mem_nil _, fun _ => asksWithin_nil hnodup⟩
  | cons e rest ih =>
    rw [List.length_cons] at hroom
    -- with the name for the first export, names come out exactly if they do for the rest
    have hstep {method : String} {pool' : NamePool}
        (hdraw : pool.draw (nameCounter platform) (candidate platform.snakeCase e) =
          .ok (method, pool'))
        (hwithin : platform.overflow = .stops →
          (AsksWithin platform.snakeCase pool' rest ↔
            AsksWithin platform.snakeCase pool (e :: rest))) :
        (∃ named, assignNames platform m pool (e :: rest) = .ok named) ↔
          (∀ item ∈ e :: rest, item.index < m.count item.kind) ∧
            (platform.overflow = .stops → AsksWithin platform.snakeCase pool (e :: rest)) := by
      have hused := length_used_of_draw hdraw
      have hrest := ih (nodup_of_draw hdraw hnodup) (by omega)
      rw [List.forall_mem_cons, ← imp_congr_right hwithin, and_assoc, ← hrest]
      constructor
      · rintro ⟨named, h⟩
        obtain ⟨hindex, _, _, items, hdrawn, hitems, -⟩ := of_assignNames_cons h
        cases hdraw.symm.trans hdrawn
        exact ⟨hindex, items, hitems⟩
      · rintro ⟨hindex, items, hitems⟩
        exact ⟨_, assignNames_cons_ok hindex hdraw hitems⟩
    obtain ⟨hkept, name, _, hdraw, -⟩ | ⟨hlost, ⟨hover, hstops⟩ | ⟨hover, name, _, hdraw, -⟩⟩ :=
      draw_cases platform pool (isLegal_candidate platform.snakeCase e) (by omega)
    · exact hstep hdraw fun _ => asksWithin_iff_of_draw hdraw hkept rest
    · refine iff_of_false ?_ fun h => not_asksWithin hlost rest (h.2 hover)
      rintro ⟨named, h⟩
      obtain ⟨-, _, _, _, hdrawn, -⟩ := of_assignNames_cons h
      cases hstops.symm.trans hdrawn
    · exact hstep hdraw fun hstops => by cases hover.symm.trans hstops

end

/-- The methods are those of the exports, and their names keep apart from each other and from what is
used otherwise, whatever the rule for putting names into snake case is.  They are identifiers as long
as the counter does not go below zero: always if it stops instead, and up to 2 ^ 31 - 7 exports exactly
if at most one function asks for `fn` and one for `ref_fn`.  Up to that number the names come out
whenever the indices of the exports are in range, except that a counter that stops asks for the same
condition. -/
theorem assignNames_methodsNamed_iff (platform : Platform) (m : Module) :
    (∀ named, assignNames platform m .start m.exports = .ok named →
      MethodsApart m.exports named ∧
        (platform.overflow = .stops → MethodsNamed m.exports named) ∧
        (m.exports.length + 7 ≤ 2 ^ 31 →
          (MethodsNamed m.exports named ↔ AsksOnce platform.snakeCase m.exports))) ∧
      (m.exports.length + 7 ≤ 2 ^ 31 →
        ((∃ named, assignNames platform m .start m.exports = .ok named) ↔
          (∀ e ∈ m.exports, e.index < m.count e.kind) ∧
            (platform.overflow = .stops → AsksOnce platform.snakeCase m.exports))) := by
  have hnodup : NamePool.start.used.Nodup := by decide
  have hused : NamePool.start.used.length = 5 := rfl
  constructor
  · intro named h
    have hapart := methodsApart_of_assignNames h
    refine ⟨hapart, fun hover => ⟨hapart, ?_⟩, fun hroom => ?_⟩
    · exact forall_method (isLegal_of_draw hover (isLegal_candidate _ _)) h
    · rw [← asksWithin_start_iff, ← forall_isLegal_iff hnodup (by omega) h]
      exact ⟨MethodsNamed.legal, fun hlegal => ⟨hapart, hlegal⟩⟩
  · intro hroom
    rw [← asksWithin_start_iff]
    exact exists_assignNames_iff hnodup (by omega)

/-- Exports that ask for a keyword twice, for the name with a number that the second one gets, and
for names that are used otherwise. -/
def crowdedModule : Module where
  types := [{ params := [], results := [] }]
  functions := [{ type := 0, locals := [], body := [] }]
  memories := [⟨1, none⟩]
  exports := [⟨"type", .func, 0⟩, ⟨"Type", .func, 0⟩, ⟨"type_2", .func, 0⟩, ⟨"fn_0", .func, 0⟩,
    ⟨"new", .func, 0⟩, ⟨"", .memory, 0⟩, ⟨"Self", .func, 0⟩, ⟨"7!", .func, 0⟩]

theorem assignNames_methodsNamed_iff_crowded :
    ∃ named, assignNames .release crowdedModule .start crowdedModule.exports = .ok named ∧
      named.map NamedExport.method =
        ["r#type", "type_2", "type_2_2", "fn_0_2", "new_2", "memory_export", "self_", "_7"] ∧
      MethodsNamed crowdedModule.exports named := by
  obtain ⟨hnamed, -⟩ := assignNames_methodsNamed_iff .release crowdedModule
  obtain ⟨named, hrun, hmethods⟩ : ∃ named,
      assignNames .release crowdedModule .start crowdedModule.exports = .ok named ∧
        named.map NamedExport.method =
          ["r#type", "type_2", "type_2_2", "fn_0_2", "new_2", "memory_export", "self_", "_7"] :=
    ⟨_, rfl, by decide +kernel⟩
  obtain ⟨-, -, hiff⟩ := hnamed named hrun
  exact ⟨named, hrun, hmethods, (hiff (by decide)).2 (by decide +kernel)⟩

/-- Two functions that ask for `fn`. -/
def doubledModule : Module where
  types := [{ params := [], results := [] }]
  functions := [{ type := 0, locals := [], body := [] }]
  exports := [⟨"fn", .func, 0⟩, ⟨"Fn", .func, 0⟩]

/-- The second one gets the first number that the counter comes to below zero. -/
theorem doubledModule_notNamed :
    ∃ named, assignNames .release doubledModule .start doubledModule.exports = .ok named ∧
      named.map NamedExport.method = ["r#fn", "fn_-2147483648"] ∧
      ¬ MethodsNamed doubledModule.exports named := by
  have hfirst : NamePool.start.draw (nameCounter .release)
      (candidate Platform.release.snakeCase ⟨"fn", .func, 0⟩) =
        .ok ("r#fn", ⟨"r#fn" :: NamePool.start.used⟩) := rfl
  have hsecond : NamePool.draw (nameCounter .release) ⟨"r#fn" :: NamePool.start.used⟩
      (candidate Platform.release.snakeCase ⟨"Fn", .func, 0⟩) =
        .ok ("fn_-2147483648", ⟨"fn_-2147483648" :: "r#fn" :: NamePool.start.used⟩) := by
    rw [draw_of_reserved (by decide : 3 ≤ 32) (by decide +kernel) (by decide +kernel)]
    rfl
  refine ⟨_, assignNames_cons_ok (by decide) hfirst (assignNames_cons_ok (by decide) hsecond rfl), rfl,
    fun hnamed => ?_⟩
  have hlegal := hnamed.legal _ (List.mem_cons_of_mem _ List.mem_cons_self)
  have hwrapped : IsWrapped "fn_-2147483648" :=
    ⟨"fn", -2147483648, ⟨⟨by decide, by decide⟩, by decide, 'f', by decide, by decide⟩, by decide, rfl⟩
  exact hwrapped.not_isLegal hlegal

end WasmAot.Artifact
