/-
# Names of entries

Whatever an export is called, it asks for a name of letters, digits and underscores, or for a keyword
behind the mark of raw identifiers.  The method for it gets this name, or if it is taken the name with
a number behind it.  If the counter of these numbers has wrapped there is a minus sign between the two.
-/
import WasmAot.Artifact.Plan
import WasmAot.Proofs.Naming.Words

namespace WasmAot.Artifact

open Text

/-- The name is a word, or a keyword behind the mark of raw identifiers. -/
def IsAsked (name : String) : Prop :=
  IsWord name.toList ∨ ∃ keyword ∈ keywords, name = "r#" ++ keyword

/-- The name is such a one, or a word with a number below zero behind it. -/
def IsMethodName (name : String) : Prop :=
  IsAsked name ∨ ∃ (stem : String) (n : Nat), IsWord stem.toList ∧ name = stem ++ ("-" ++ toString n)

lemma isWord_append {x y : List Char} (hx : IsWord x) (hy : ∀ c ∈ y, isWordChar c = true) :
    IsWord (x ++ y) :=
  ⟨List.append_ne_nil_of_left_ne_nil hx.nonempty _, List.forall_mem_append.2 ⟨hx.chars, hy⟩⟩

/-- Keywords are made up of letters. -/
lemma alphanumeric_keyword {keyword : String} (h : keyword ∈ keywords) :
    keyword.toList ≠ [] ∧ ∀ c ∈ keyword.toList, isAsciiAlphanumeric c = true := by
  have hall : ∀ keyword ∈ keywords,
      keyword.toList ≠ [] ∧ ∀ c ∈ keyword.toList, isAsciiAlphanumeric c = true := by
    decide +kernel
  exact hall keyword h

lemma stripStart?_append (start rest : List Char) :
    stripStart? start (start ++ rest) = some rest := by
  induction start with
  | nil => rfl
  | cons c start ih => rw [List.cons_append, stripStart?, if_pos rfl, ih]

lemma stripStart?_eq_some_iff {start cs rest : List Char} :
    stripStart? start cs = some rest ↔ cs = start ++ rest := by
  constructor
  · intro h
    induction start generalizing cs with
    | nil =>
      cases h
      rfl
    | cons c start ih =>
      cases cs with
      | nil => cases h
      | cons d cs =>
        rw [stripStart?] at h
        split at h
        case isTrue heq => rw [heq, List.cons_append, ih h]
        case isFalse => cases h
  · rintro rfl
    exact stripStart?_append start rest

lemma isWord_of_alphanumeric {cs : List Char} (hne : cs ≠ [])
    (h : ∀ c ∈ cs, isAsciiAlphanumeric c = true) : IsWord cs :=
  ⟨hne, fun c hc => by simp [isWordChar, h c hc]⟩

/-- Of a method name its first word is cited, unless the word is a keyword. -/
lemma IsMethodName.cites {P : String → Prop} {name : String} (h : IsMethodName name)
    (hP : ∀ word rest, name = word ++ rest → IsWord word.toList → opens rest.toList = true →
      P word) : CitesText P name := by
  rcases h with (hword | ⟨keyword, hkeyword, rfl⟩) | ⟨stem, n, hstem, rfl⟩
  · refine hword.cites ?_
    rw [String.ofList_toList]
    exact hP name "" String.append_empty.symm hword rfl
  · have hidle : IdleText keyword := idle_of_alphanumeric (alphanumeric_keyword hkeyword).2
    exact (hidle.behind rfl).cites
  · have hopens : opens ("-" ++ toString n).toList = true := by
      rw [String.toList_append]
      rfl
    have hcites : CitesText P stem := hstem.cites (by
      rw [String.ofList_toList]
      exact hP stem _ rfl hstem hopens)
    have hnumber : IdleText ("-" ++ toString n) := IdleText.behind (idle_repr n) rfl
    exact TailText.cites ⟨_, _, rfl, hcites, hnumber, hopens, by simp⟩

/-! ### The name that an export asks for -/

lemma isWord_identChars (snake : List Char) : IsWord (identChars snake) := by
  have hchars : ∀ c ∈ snake.map fun c => if isAsciiAlphanumeric c then c else '_',
      isWordChar c = true := by
    refine List.forall_mem_map.2 fun c _ => ?_
    split
    · rename_i hc
      simp [isWordChar, hc]
    · rfl
  have hword : IsWord
      (if (snake.map fun c => if isAsciiAlphanumeric c then c else '_').all (· == '_')
        then placeholder else snake.map fun c => if isAsciiAlphanumeric c then c else '_') := by
    split
    · exact ⟨by decide, by decide⟩
    · rename_i hall
      refine ⟨fun hnil => hall ?_, hchars⟩
      rw [hnil]
      rfl
  unfold identChars
  dsimp only
  split
  · split
    · rename_i heq _
      exact ⟨List.cons_ne_nil _ _, List.forall_mem_cons.2 ⟨rfl, heq ▸ hword.chars⟩⟩
    · rename_i heq _
      exact heq ▸ hword
  · rename_i heq
    exact absurd heq hword.nonempty

section

variable (snakeCase : String → String)

lemma isWord_plainIdent (name : String) : IsWord (plainIdent snakeCase name).toList := by
  rw [plainIdent, String.toList_ofList]
  exact isWord_identChars _

lemma isAsked_methodName (name : String) : IsAsked (methodName snakeCase name) := by
  have hword := isWord_plainIdent snakeCase name
  unfold methodName escapeKeyword
  split
  · refine .inl ?_
    rw [String.toList_append]
    exact isWord_append hword (by decide)
  · split
    · rename_i hkeyword
      exact .inr ⟨_, List.contains_iff_mem.1 hkeyword, rfl⟩
    · exact .inl hword

lemma isAsked_candidate (e : Export) : IsAsked (candidate snakeCase e) := by
  have hword := isWord_plainIdent snakeCase e.name
  have hprefixed {front : String} (h : IsWord front.toList) :
      IsAsked (front ++ plainIdent snakeCase e.name) := by
    refine .inl ?_
    rw [String.toList_append]
    exact isWord_append h hword.chars
  unfold candidate
  split
  · exact isAsked_methodName snakeCase e.name
  all_goals exact hprefixed ⟨by decide, by decide⟩

end

/-! ### Names with a number -/

lemma stripRaw_of_not_mem {cs : List Char} (h : '#' ∉ cs) : stripRaw cs = cs := by
  unfold stripRaw
  split
  · simp at h
  · rfl

lemma not_mem_of_isWord {cs : List Char} {c : Char} (h : IsWord cs) (hc : isWordChar c = false) :
    c ∉ cs := by
  intro hmem
  rw [h.chars c hmem] at hc
  cases hc

lemma stripRaw_of_isWord {cs : List Char} (h : IsWord cs) : stripRaw cs = cs :=
  stripRaw_of_not_mem (not_mem_of_isWord h rfl)

/-- Without the marks in front of it a name is a word. -/
lemma isWord_stripRaw {name : String} (h : IsAsked name) : IsWord (stripRaw name.toList) := by
  rcases h with hword | ⟨keyword, hkeyword, rfl⟩
  · rw [stripRaw_of_isWord hword]
    exact hword
  · obtain ⟨hne, hchars⟩ := alphanumeric_keyword hkeyword
    have hword := isWord_of_alphanumeric hne hchars
    have hraw : stripRaw ("r#" ++ keyword).toList = stripRaw keyword.toList := by
      rw [String.toList_append]
      rfl
    rw [hraw, stripRaw_of_isWord hword]
    exact hword

lemma isMethodName_numbered {base : String} (h : IsWord base.toList) (n : Int) :
    IsMethodName (NamePool.numbered base n) := by
  have hstem : ∀ c ∈ base.toList ++ "_".toList, isWordChar c = true :=
    List.forall_mem_append.2 ⟨h.chars, by decide⟩
  cases n with
  | ofNat n =>
    have hword := isWord_numbered hstem n
    have htext : (NamePool.numbered base (.ofNat n)).toList =
        base.toList ++ "_".toList ++ n.repr.toList := by
      rw [← String.toList_append, ← String.toList_append]
      rfl
    exact .inl (.inl (htext ▸ hword))
  | negSucc n =>
    refine .inr ⟨base ++ "_", n + 1, ?_, rfl⟩
    rw [String.toList_append]
    exact isWord_append h (by decide)

/-- The name without the mark of raw identifiers. -/
def bareName (name : String) : String :=
  String.ofList (stripRaw name.toList)

section

variable {c : Counter} {pool pool' : NamePool}

lemma of_firstFree {base name : String} {n : Int} {tries : Nat}
    (h : pool.firstFree c base n tries = .ok name) :
    pool.isTaken name = false ∧ ∃ k, name = NamePool.numbered base k := by
  induction tries generalizing n with
  | zero => cases h
  | succ tries ih =>
    rw [NamePool.firstFree] at h
    split at h
    · split at h
      · exact ih h
      · cases h
    · rename_i hfree
      cases h
      exact ⟨by simpa using hfree, n, rfl⟩

lemma draw_of_free {asked : String} (h : pool.isTaken asked = false) :
    pool.draw c asked = .ok (asked, ⟨asked :: pool.used⟩) := by
  rw [NamePool.draw, h]
  rfl

/-- A name that is taken is drawn with the number that the search finds. -/
lemma draw_of_taken {asked : String} (h : pool.isTaken asked = true) :
    pool.draw c asked = (pool.firstFree c (bareName asked) 2 c.size).map
      fun name => (name, ⟨name :: pool.used⟩) := by
  rw [NamePool.draw, h]
  rfl

/-- The name asked for is drawn if it is free, and else the one that the search finds. -/
lemma of_draw_ok {asked name : String} (h : pool.draw c asked = .ok (name, pool')) :
    pool'.used = name :: pool.used ∧
      (pool.isTaken asked = false ∧ name = asked ∨
        pool.isTaken asked = true ∧ pool.firstFree c (bareName asked) 2 c.size = .ok name) := by
  cases htaken : pool.isTaken asked with
  | false =>
    rw [draw_of_free htaken] at h
    cases h
    exact ⟨rfl, .inl ⟨rfl, rfl⟩⟩
  | true =>
    rw [draw_of_taken htaken] at h
    cases hfound : pool.firstFree c (bareName asked) 2 c.size with
    | error why =>
      rw [hfound] at h
      cases h
    | ok free =>
      rw [hfound] at h
      cases h
      exact ⟨rfl, .inr ⟨rfl, rfl⟩⟩

/-- The name that is drawn was free and is so no longer; it is the one asked for, or has a number. -/
lemma of_draw {asked name : String} (h : pool.draw c asked = .ok (name, pool')) :
    pool.isTaken name = false ∧ pool'.used = name :: pool.used ∧
      (name = asked ∨ ∃ k, name = NamePool.numbered (bareName asked) k) := by
  obtain ⟨hused, ⟨hfree, rfl⟩ | ⟨-, hfound⟩⟩ := of_draw_ok h
  · exact ⟨hfree, hused, .inl rfl⟩
  · obtain ⟨hfree, hnumbered⟩ := of_firstFree hfound
    exact ⟨hfree, hused, .inr hnumbered⟩

lemma isMethodName_draw {name method : String} (hname : IsAsked name)
    (h : pool.draw c name = .ok (method, pool')) : IsMethodName method := by
  obtain ⟨-, -, rfl | ⟨n, rfl⟩⟩ := of_draw h
  · exact .inl hname
  · refine isMethodName_numbered ?_ n
    rw [bareName, String.toList_ofList]
    exact isWord_stripRaw hname

end

/-! ### The names of all exports -/

section

variable {platform : Platform} {m : Module} {pool : NamePool}

lemma of_assignNames_cons {e : Export} {rest : List Export} {named : List NamedExport}
    (h : assignNames platform m pool (e :: rest) = .ok named) :
    e.index < m.count e.kind ∧ ∃ method pool' items,
      pool.draw (nameCounter platform) (candidate platform.snakeCase e) = .ok (method, pool') ∧
        assignNames platform m pool' rest = .ok items ∧
        named = { name := e.name, method, kind := e.kind, index := e.index } :: items := by
  rw [assignNames] at h
  split at h
  · rename_i hindex
    split at h
    · cases h
    · rename_i method pool' hdraw
      cases hrest : assignNames platform m pool' rest with
      | error error =>
        rw [hrest] at h
        cases h
      | ok items =>
        rw [hrest] at h
        cases h
        exact ⟨hindex, method, pool', items, hdraw, hrest, rfl⟩
  · cases h

/-- The index of every export has been checked, and its method has a proper name. -/
lemma assignNames_spec {exports : List Export} {named : List NamedExport}
    (h : assignNames platform m pool exports = .ok named) :
    ∀ e ∈ named, IsMethodName e.method ∧ e.index < m.count e.kind := by
  induction exports generalizing pool named with
  | nil =>
    cases h
    exact List.forall_mem_nil _
  | cons e rest ih =>
    obtain ⟨hindex, method, pool', items, hdraw, hrest, rfl⟩ := of_assignNames_cons h
    have hmethod := isMethodName_draw (isAsked_candidate _ e) hdraw
    exact List.forall_mem_cons.2 ⟨⟨hmethod, hindex⟩, ih hrest⟩

end

end WasmAot.Artifact
