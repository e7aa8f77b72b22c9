/-
# Words of source text

What a text says outside of its comments and string literals: `wordLines` gives its lines, each as
the list of its words.  A word is a longest sequence of letters, digits and underscores.

Emitted text is put together from pieces.  A piece is `Idle` if it holds no word with a number
behind an underscore, wherever it stands; this is kept by putting pieces together, whatever they are.
A piece with such words is described by `Cites`, and there the neighbours have to be kept apart from
the words.
-/
import Mathlib.Data.List.Chain
import WasmAot.Proofs.Text.ByteLiterals
import WasmAot.Text.Alphanumeric
import WasmAot.Text.ByteLiteral
import WasmAot.Text.Layout

namespace WasmAot.Text

/-! ### Reading -/

/-- Where a reader of source is. -/
inductive Mode where
  | code
  /-- behind a slash, which may begin a comment -/
  | slash
  | comment
  /-- inside of a string literal -/
  | quoted
  /-- behind a backslash inside of a string literal -/
  | escaped
  deriving DecidableEq

/-- What is left of a character outside of comments and string literals, and where the reader is
after it.  A string literal counts as a blank. -/
def Mode.step (mode : Mode) (c : Char) : List Char × Mode :=
  match mode with
  | code =>
    if c = '\x22' then ([' '], quoted) else if c = '/' then ([], slash) else ([c], code)
  | slash =>
    if c = '\x22' then (['/', ' '], quoted)
    else if c = '/' then ([], comment)
    else (['/', c], code)
  | comment => if c = '\n' then ([c], code) else ([], comment)
  | quoted =>
    if c = '\x22' then ([], code) else if c = backslash then ([], escaped) else ([], quoted)
  | escaped => ([], quoted)

/-- The text without its comments and string literals. -/
def strip : Mode → List Char → List Char
  | _, [] => []
  | mode, c :: cs => (mode.step c).1 ++ strip (mode.step c).2 cs

/-- Where the reader is after some characters. -/
def Mode.after (mode : Mode) (cs : List Char) : Mode :=
  cs.foldl (fun mode c => (mode.step c).2) mode

/-- The characters of words. -/
def isWordChar (c : Char) : Bool :=
  isAsciiAlphanumeric c || c == '_'

/-- The words among some characters, in order. -/
def words (cs : List Char) : List String :=
  ((cs.splitOnP fun c => !isWordChar c).filter fun w => !w.isEmpty).map String.ofList

/-- The lines of a text as words. -/
def wordLines (text : String) : List (List String) :=
  ((strip .code text.toList).splitOn '\n').map words

lemma strip_append (mode : Mode) (x y : List Char) :
    strip mode (x ++ y) = strip mode x ++ strip (mode.after x) y := by
  induction x generalizing mode with
  | nil => rfl
  | cons c x ih => simp only [List.cons_append, strip, ih, List.append_assoc]; rfl

lemma after_append (mode : Mode) (x y : List Char) :
    mode.after (x ++ y) = (mode.after x).after y :=
  List.foldl_append

/-! ### Words -/

/-- The characters make up one word. -/
structure IsWord (w : List Char) : Prop where
  nonempty : w ≠ []
  chars : ∀ c ∈ w, isWordChar c = true

@[simp]
lemma words_nil : words [] = [] := rfl

lemma words_append_cons {c : Char} (hc : isWordChar c = false) (x y : List Char) :
    words (x ++ c :: y) = words x ++ words y := by
  rw [words, List.splitOnP_append_cons _ _ (by simp [hc]), List.filter_append, List.map_append]
  rfl

lemma words_cons {c : Char} (hc : isWordChar c = false) (y : List Char) :
    words (c :: y) = words y :=
  words_append_cons hc [] y

lemma IsWord.words {w : List Char} (h : IsWord w) : words w = [String.ofList w] := by
  have hsplit : (w.splitOnP fun c => !isWordChar c) = [w] :=
    List.splitOnP_eq_singleton fun c hc => by simp [h.chars c hc]
  simp [Text.words, hsplit, h.nonempty]

/-- No word goes on into the text, if one stands in front of it. -/
def opens : List Char → Bool
  | [] => true
  | c :: _ => !isWordChar c && c != '/'

/-- No word at the end of the text goes on behind it. -/
def shuts (cs : List Char) : Bool :=
  cs.getLast?.all fun c => !isWordChar c

lemma words_append_of_shuts {x : List Char} (h : shuts x = true) (y : List Char) :
    words (x ++ y) = words x ++ words y := by
  rcases List.eq_nil_or_concat x with rfl | ⟨x, c, rfl⟩
  · rfl
  · have hc : isWordChar c = false := by simpa [shuts] using h
    rw [List.concat_eq_append, List.append_assoc, List.singleton_append, words_append_cons hc,
      words_append_cons hc, words_nil, List.append_nil]

lemma words_append_of_opens (x : List Char) {y : List Char}
    (h : ∀ c ∈ y.head?, isWordChar c = false) : words (x ++ y) = words x ++ words y := by
  cases y with
  | nil => simp
  | cons c y =>
    have hc : isWordChar c = false := h c rfl
    rw [words_append_cons hc, words_cons hc]

lemma splitOnP_infix {α : Type} (p : α → Bool) (xs : List α) :
    ∃ first rest, xs.splitOnP p = first :: rest ∧ first <+: xs ∧ ∀ w ∈ rest, w <:+: xs := by
  induction xs with
  | nil => exact ⟨[], [], rfl, List.nil_prefix, nofun⟩
  | cons x xs ih =>
    obtain ⟨first, rest, hsplit, hfirst, hrest⟩ := ih
    have hcons : ∀ {w : List α}, w <:+: xs → w <:+: x :: xs :=
      fun h => h.trans (List.suffix_cons x xs).isInfix
    rw [List.splitOnP_cons_eq_if_modifyHead, hsplit]
    split
    · refine ⟨[], first :: rest, rfl, List.nil_prefix, ?_⟩
      exact List.forall_mem_cons.2 ⟨hcons hfirst.isInfix, fun w hw => hcons (hrest w hw)⟩
    · exact ⟨x :: first, rest, rfl, List.cons_prefix_cons.2 ⟨rfl, hfirst⟩,
        fun w hw => hcons (hrest w hw)⟩

/-- A word stands in the text in one piece. -/
lemma infix_of_mem_words {cs : List Char} {w : String} (h : w ∈ words cs) : w.toList <:+: cs := by
  obtain ⟨w, hw, rfl⟩ := List.mem_map.1 h
  obtain ⟨first, rest, hsplit, hfirst, hrest⟩ := splitOnP_infix (fun c => !isWordChar c) cs
  rw [String.toList_ofList]
  have hmem := (List.mem_filter.1 hw).1
  rw [hsplit] at hmem
  rcases List.mem_cons.1 hmem with rfl | hmem
  · exact hfirst.isInfix
  · exact hrest w hmem

/-! ### Pieces without numbered words -/

/-- A digit stands behind an underscore. -/
def HasIndex (w : List Char) : Prop :=
  ∃ u d v, w = u ++ '_' :: d :: v ∧ d.isDigit = true

/-- The piece holds no comment, no string literal, and no digit behind an underscore, and none of
them begins with its last character. -/
structure Idle (cs : List Char) : Prop where
  chars : ∀ c ∈ cs, c ≠ '\x22' ∧ c ≠ '\n'
  pairs : cs.IsChain fun c d => ¬ (c = '/' ∧ d = '/') ∧ ¬ (c = '_' ∧ d.isDigit = true)
  last : ∀ c ∈ cs.getLast?, c ≠ '/' ∧ c ≠ '_'

-- A property of the characters of a piece is decided along the piece: without these, the instance
-- that tries every character there is comes first wherever it is imported.
instance decidableAllOf (cs : List Char) (P : Char → Prop) [DecidablePred P] :
    Decidable (∀ c ∈ cs, P c) :=
  List.decidableBAll P cs

instance decidableAllOfOption (o : Option Char) (P : Char → Prop) [DecidablePred P] :
    Decidable (∀ c ∈ o, P c) :=
  Option.decidableForallMem o

instance (cs : List Char) : Decidable (Idle cs) :=
  decidable_of_iff ((∀ c ∈ cs, c ≠ '\x22' ∧ c ≠ '\n') ∧
      (cs.IsChain fun c d => ¬ (c = '/' ∧ d = '/') ∧ ¬ (c = '_' ∧ d.isDigit = true)) ∧
      ∀ c ∈ cs.getLast?, c ≠ '/' ∧ c ≠ '_')
    ⟨fun h => ⟨h.1, h.2.1, h.2.2⟩, fun h => ⟨h.chars, h.pairs, h.last⟩⟩

namespace Idle

variable {x y : List Char}

lemma append (hx : Idle x) (hy : Idle y) : Idle (x ++ y) := by
  refine ⟨List.forall_mem_append.2 ⟨hx.chars, hy.chars⟩,
    List.isChain_append.2 ⟨hx.pairs, hy.pairs, fun c hc d _ => ?_⟩, fun c hc => ?_⟩
  · exact ⟨fun h => (hx.last c hc).1 h.1, fun h => (hx.last c hc).2 h.1⟩
  · rw [List.getLast?_append] at hc
    rcases Option.or_eq_some_iff.1 hc with hc | ⟨-, hc⟩
    · exact hy.last c hc
    · exact hx.last c hc

lemma of_append (h : Idle (x ++ y)) : Idle y := by
  refine ⟨(List.forall_mem_append.1 h.chars).2, (List.isChain_append.1 h.pairs).2.1, fun c hc => ?_⟩
  refine h.last c ?_
  rw [List.getLast?_append]
  exact Option.or_eq_some_iff.2 (.inl hc)

/-- Characters that begin none of what is excluded. -/
lemma of_chars (h : ∀ c ∈ x, c ≠ '\x22' ∧ c ≠ '\n' ∧ c ≠ '/' ∧ c ≠ '_') : Idle x := by
  refine ⟨fun c hc => ⟨(h c hc).1, (h c hc).2.1⟩, ?_,
    fun c hc => (h c (List.mem_of_getLast? hc)).2.2⟩
  induction x with
  | nil => exact .nil
  | cons c x ih =>
    obtain ⟨hc, hx⟩ := List.forall_mem_cons.1 h
    refine List.isChain_cons.2 ⟨fun d _ => ?_, ih hx⟩
    exact ⟨fun hslash => hc.2.2.1 hslash.1, fun hunder => hc.2.2.2 hunder.1⟩

/-- A reader leaves the piece as it is, also if it begins with the second part of something that
begins with a slash. -/
lemma read (cs : List Char) :
    (Idle cs → Mode.code.after cs = .code ∧ strip .code cs = cs) ∧
      (Idle ('/' :: cs) → Mode.slash.after cs = .code ∧ strip .slash cs = '/' :: cs) := by
  induction cs with
  | nil => exact ⟨fun _ => ⟨rfl, rfl⟩, fun h => absurd rfl (h.last '/' rfl).1⟩
  | cons c cs ih =>
    constructor
    · intro h
      have hquote := (h.chars c List.mem_cons_self).1
      by_cases hslash : c = '/'
      · subst hslash
        exact ih.2 h
      · have hstep : Mode.code.step c = ([c], .code) := by simp [Mode.step, hquote, hslash]
        obtain ⟨hafter, hstrip⟩ := ih.1 (@of_append [c] _ h)
        exact ⟨by rw [Mode.after, List.foldl_cons, hstep]; exact hafter,
          by rw [strip, hstep, hstrip]; rfl⟩
    · intro h
      have hquote := (h.chars c (by simp)).1
      -- two slashes in a row would begin a comment
      have hslash : c ≠ '/' := fun hc => ((List.isChain_cons_cons.1 h.pairs).1).1 ⟨rfl, hc⟩
      have hstep : Mode.slash.step c = (['/', c], .code) := by simp [Mode.step, hquote, hslash]
      obtain ⟨hafter, hstrip⟩ := ih.1 (@of_append ['/', c] _ h)
      exact ⟨by rw [Mode.after, List.foldl_cons, hstep]; exact hafter,
        by rw [strip, hstep, hstrip]; rfl⟩

lemma after (h : Idle x) : Mode.code.after x = .code :=
  ((read x).1 h).1

lemma strip (h : Idle x) : strip .code x = x :=
  ((read x).1 h).2

lemma not_hasIndex (h : Idle x) {w : String} (hw : w ∈ words x) : ¬ HasIndex w.toList := by
  rintro ⟨u, d, v, hsplit, hd⟩
  have hpairs := h.pairs.infix (infix_of_mem_words hw)
  rw [hsplit] at hpairs
  have hpair := (List.isChain_append.1 hpairs).2.1
  exact ((List.isChain_cons_cons.1 hpair).1).2 ⟨rfl, hd⟩

end Idle

/-! ### Pieces with numbered words -/

/-- The piece is code in one line, and every word with a number is one of those allowed. -/
structure Cites (P : String → Prop) (cs : List Char) : Prop where
  ends : Mode.code.after cs = .code
  oneLine : '\n' ∉ strip .code cs
  cited : ∀ w ∈ words (strip .code cs), HasIndex w.toList → P w

section

variable {P Q : String → Prop} {x y : List Char}

lemma Idle.cites (h : Idle x) : Cites P x := by
  refine ⟨h.after, fun hmem => ?_, fun w hw hindex => ?_⟩
  · rw [h.strip] at hmem
    exact (h.chars _ hmem).2 rfl
  · rw [h.strip] at hw
    exact absurd hindex (h.not_hasIndex hw)

namespace Cites

lemma mono (h : Cites P x) (hPQ : ∀ w, P w → Q w) : Cites Q x :=
  ⟨h.ends, h.oneLine, fun w hw hindex => hPQ w (h.cited w hw hindex)⟩

/-- Two pieces whose words are kept apart. -/
lemma join (hx : Cites P x) (hy : Cites P y)
    (hwords : words (strip .code x ++ strip .code y) =
      words (strip .code x) ++ words (strip .code y)) : Cites P (x ++ y) := by
  have hstrip : strip .code (x ++ y) = strip .code x ++ strip .code y := by
    rw [strip_append, hx.ends]
  refine ⟨by rw [after_append, hx.ends, hy.ends], ?_, ?_⟩
  · rw [hstrip, List.mem_append]
    exact not_or.2 ⟨hx.oneLine, hy.oneLine⟩
  · rw [hstrip, hwords]
    exact List.forall_mem_append.2 ⟨hx.cited, hy.cited⟩

lemma head_strip_of_opens (h : opens y = true) :
    ∀ c ∈ (strip .code y).head?, isWordChar c = false := by
  cases y with
  | nil => nofun
  | cons c y =>
    simp only [opens, Bool.and_eq_true, Bool.not_eq_true', bne_iff_ne, ne_eq] at h
    intro d hd
    by_cases hquote : c = '\x22'
    · subst hquote
      cases hd
      rfl
    · have hstep : Mode.code.step c = ([c], .code) := by simp [Mode.step, hquote, h.2]
      rw [strip, hstep] at hd
      cases hd
      exact h.1

/-- A piece that no word can go on into, behind anything. -/
lemma before_opening (hx : Cites P x) (hy : Cites P y) (hopens : opens y = true) :
    Cites P (x ++ y) :=
  hx.join hy (words_append_of_opens _ (head_strip_of_opens hopens))

end Cites

/-- A reader leaves characters as they are that begin neither a comment nor a literal. -/
lemma read_of_chars (h : ∀ c ∈ x, c ≠ '\x22' ∧ c ≠ '/') :
    Mode.code.after x = .code ∧ strip .code x = x := by
  induction x with
  | nil => exact ⟨rfl, rfl⟩
  | cons c x ih =>
    obtain ⟨hc, hx⟩ := List.forall_mem_cons.1 h
    have hstep : Mode.code.step c = ([c], .code) := by simp [Mode.step, hc.1, hc.2]
    obtain ⟨hafter, hstrip⟩ := ih hx
    exact ⟨by rw [Mode.after, List.foldl_cons, hstep]; exact hafter,
      by rw [strip, hstep, hstrip]; rfl⟩

lemma IsWord.ne_of_mem {w : List Char} (h : IsWord w) {c : Char} (hc : c ∈ w) :
    c ≠ '\x22' ∧ c ≠ '\n' ∧ c ≠ '/' := by
  have hword := h.chars c hc
  refine ⟨?_, ?_, ?_⟩ <;> rintro rfl <;> exact absurd hword (by decide)

lemma IsWord.strip {w : List Char} (h : IsWord w) : Mode.code.after w = .code ∧ strip .code w = w :=
  read_of_chars fun _ hc => ⟨(h.ne_of_mem hc).1, (h.ne_of_mem hc).2.2⟩

lemma IsWord.cites {w : List Char} (h : IsWord w) (hP : P (String.ofList w)) : Cites P w := by
  obtain ⟨hafter, hstrip⟩ := h.strip
  refine ⟨hafter, fun hmem => ?_, fun w' hw' _ => ?_⟩
  · rw [hstrip] at hmem
    exact (h.ne_of_mem hmem).2.1 rfl
  · rw [hstrip, h.words, List.mem_singleton] at hw'
    rwa [hw']

end

/-! ### Digits -/

lemma exists_digit_of_mem_toDigits {b n : Nat} (hb : 1 < b) {c : Char} (h : c ∈ b.toDigits n) :
    ∃ d < b, c = d.digitChar := by
  induction n using Nat.strongRecOn with
  | ind n ih =>
    by_cases hn : n < b
    · rw [Nat.toDigits_of_lt_base hn, List.mem_singleton] at h
      exact ⟨n, hn, h⟩
    · rw [Nat.toDigits_of_base_le hb (by omega), List.mem_append, List.mem_singleton] at h
      rcases h with h | h
      · exact ih (n / b) (Nat.div_lt_self (by omega) hb) h
      · exact ⟨n % b, Nat.mod_lt _ (by omega), h⟩

lemma toDigits_injective : Function.Injective (Nat.toDigits 10) :=
  Function.LeftInverse.injective fun _ => Nat.ofDigitChars_ten_toDigits

lemma isAsciiAlphanumeric_of_mem_toDigits {b n : Nat} (hb : 1 < b) (hb' : b ≤ 16) {c : Char}
    (h : c ∈ b.toDigits n) : isAsciiAlphanumeric c = true := by
  obtain ⟨d, hd, rfl⟩ := exists_digit_of_mem_toDigits hb h
  have hall : ∀ d < 16, isAsciiAlphanumeric d.digitChar = true := by decide
  exact hall d (by omega)

lemma idle_of_alphanumeric {cs : List Char} (h : ∀ c ∈ cs, isAsciiAlphanumeric c = true) :
    Idle cs := by
  refine .of_chars fun c hc => ?_
  have hchar := h c hc
  refine ⟨?_, ?_, ?_, ?_⟩ <;> rintro rfl <;> exact absurd hchar (by decide)

lemma idle_toDigits {b n : Nat} (hb : 1 < b) (hb' : b ≤ 16) : Idle (b.toDigits n) :=
  idle_of_alphanumeric fun _ hc => isAsciiAlphanumeric_of_mem_toDigits hb hb' hc

lemma idle_repr (n : Nat) : Idle n.repr.toList := by
  rw [Nat.toList_repr]
  exact idle_toDigits (by decide) (by decide)

/-- A name with a number behind it is a word. -/
lemma isWord_numbered {stem : List Char} (h : ∀ c ∈ stem, isWordChar c = true) (n : Nat) :
    IsWord (stem ++ n.repr.toList) := by
  rw [Nat.toList_repr]
  refine ⟨?_, List.forall_mem_append.2 ⟨h, fun c hc => ?_⟩⟩
  · simp [Nat.toDigits_ne_nil]
  · have hchar : isAsciiAlphanumeric c = true :=
      isAsciiAlphanumeric_of_mem_toDigits (by decide) (by decide) hc
    simp [isWordChar, hchar]

/-! ### Literals and comments -/

/-- The reader passes over the characters. -/
def Skipped (mode : Mode) (cs : List Char) : Prop :=
  mode.after cs = mode ∧ strip mode cs = []

section

variable {mode : Mode} {x y : List Char}

lemma Skipped.append (hx : Skipped mode x) (hy : Skipped mode y) : Skipped mode (x ++ y) :=
  ⟨by rw [after_append, hx.1, hy.1], by rw [strip_append, hx.1, hx.2, hy.2]; rfl⟩

lemma Skipped.flatMap {α : Type} {f : α → List Char} {l : List α}
    (h : ∀ a ∈ l, Skipped mode (f a)) : Skipped mode (l.flatMap f) := by
  induction l with
  | nil => exact ⟨rfl, rfl⟩
  | cons a l ih =>
    obtain ⟨ha, hl⟩ := List.forall_mem_cons.1 h
    exact ha.append (ih hl)

lemma Skipped.of_steps (h : ∀ c ∈ x, mode.step c = ([], mode)) : Skipped mode x := by
  induction x with
  | nil => exact ⟨rfl, rfl⟩
  | cons c x ih =>
    obtain ⟨hc, hx⟩ := List.forall_mem_cons.1 h
    obtain ⟨hafter, hstrip⟩ := ih hx
    exact ⟨by rw [Mode.after, List.foldl_cons, hc]; exact hafter, by rw [strip, hc, hstrip]; rfl⟩

end

lemma skipped_comment {cs : List Char} (h : '\n' ∉ cs) : Skipped .comment cs := by
  refine .of_steps fun c hc => ?_
  have hne : c ≠ '\n' := fun heq => h (heq ▸ hc)
  simp [Mode.step, hne]

lemma skipped_quoted {cs : List Char} (h : ∀ c ∈ cs, c ≠ '\x22' ∧ c ≠ backslash) :
    Skipped .quoted cs := by
  refine .of_steps fun c hc => ?_
  simp [Mode.step, (h c hc).1, (h c hc).2]

/-- A backslash takes the next character along. -/
lemma skipped_escape (c : Char) : Skipped .quoted [backslash, c] := by
  constructor <;> simp [Mode.after, strip, Mode.step, backslash]

lemma skipped_codePointEscape (c : Char) : Skipped .quoted (codePointEscape c) := by
  have hrest : Skipped .quoted ('\x7b' :: Nat.toDigits 16 c.toNat ++ ['\x7d']) := by
    refine skipped_quoted fun d hd => ?_
    simp only [List.cons_append, List.mem_cons, List.mem_append, List.not_mem_nil, or_false] at hd
    rcases hd with rfl | hd | rfl
    · decide
    · have hchar := isAsciiAlphanumeric_of_mem_toDigits (by decide) (by decide) hd
      constructor <;> rintro rfl <;> exact absurd hchar (by decide)
    · decide
  exact (skipped_escape 'u').append hrest

lemma skipped_escapeChar (marks : Bool) (c : Char) :
    Skipped .quoted (escapeChar isDoubleQuote marks c) := by
  unfold escapeChar
  split_ifs with h₀ h₁ h₂ h₃ h₄ h₅
  · exact skipped_escape _
  · exact skipped_escape _
  · exact skipped_escape _
  · exact skipped_escape _
  · exact skipped_escape _
  · exact skipped_codePointEscape c
  · refine skipped_quoted fun d hd => ?_
    cases List.mem_singleton.1 hd
    constructor <;> rintro rfl <;> exact absurd h₄ (by decide)

lemma skipped_escapeByte (b : UInt8) : Skipped .quoted (escapeByte b) := by
  have hlt : b.toNat < 256 := b.toNat_lt
  unfold escapeByte
  split_ifs with h₀ h₁ h₂ h₃ h₄
  · exact skipped_escape _
  · exact skipped_escape _
  · exact skipped_escape _
  · exact skipped_escape _
  · refine skipped_quoted fun d hd => ?_
    cases List.mem_singleton.1 hd
    -- a quotation mark and a backslash were escaped
    obtain ⟨hbackslash, hquote, _⟩ := ofNat_plain h₃ h₄
    exact ⟨hquote, hbackslash⟩
  · refine (skipped_escape 'x').append (skipped_quoted fun d hd => ?_)
    -- no digit ends the literal or escapes what follows
    have hall : ∀ n < 16, n.digitChar ≠ '\x22' ∧ n.digitChar ≠ backslash := by decide
    simp only [List.mem_cons, List.not_mem_nil, or_false] at hd
    rcases hd with rfl | rfl
    · exact hall _ (by omega)
    · exact hall _ (by omega)

/-- A string literal counts as a blank. -/
structure IsLiteral (cs : List Char) : Prop where
  ends : Mode.code.after cs = .code
  strip : strip .code cs = [' ']

lemma isLiteral_of_skipped {cs : List Char} (h : Skipped .quoted cs) :
    IsLiteral ('\x22' :: cs ++ ['\x22']) := by
  constructor
  · change Mode.quoted.after (cs ++ ['\x22']) = .code
    rw [after_append, h.1]
    rfl
  · change [' '] ++ strip .quoted (cs ++ ['\x22']) = [' ']
    rw [strip_append, h.1, h.2]
    rfl

lemma isLiteral_stringLiteral (s : String) : IsLiteral (stringLiteral s).toList := by
  rw [stringLiteral, String.toList_ofList]
  exact isLiteral_of_skipped (.flatMap fun c _ => skipped_escapeChar true c)

lemma isLiteral_byteLiteral (bytes : List UInt8) :
    IsLiteral ('\x22' :: (byteLiteral bytes).toList ++ ['\x22']) := by
  rw [byteLiteral, String.toList_ofList]
  exact isLiteral_of_skipped (.flatMap fun b _ => skipped_escapeByte b)

lemma IsLiteral.cites {P : String → Prop} {x : List Char} (h : IsLiteral x) : Cites P x := by
  have hwords : words [' '] = [] := words_cons (by decide) []
  exact ⟨h.ends, by simp [h.strip], by simp [h.strip, hwords]⟩

lemma newline_not_mem_escapeChar (marks : Bool) (c : Char) :
    '\n' ∉ escapeChar isAnyQuote marks c := by
  unfold escapeChar
  split_ifs with h₀ h₁ h₂ h₃ h₄ h₅
  · decide
  · decide
  · decide
  · decide
  · simp only [List.mem_cons, List.not_mem_nil, or_false, not_or]
    exact ⟨by decide, fun h => h₃ (h ▸ rfl)⟩
  · simp only [codePointEscape, List.mem_append, List.mem_cons, List.not_mem_nil, or_false, not_or]
    refine ⟨⟨by decide, fun h => ?_⟩, by decide⟩
    exact absurd (isAsciiAlphanumeric_of_mem_toDigits (by decide) (by decide) h) (by decide)
  · rw [List.mem_singleton]
    exact fun h => h₃ (h ▸ rfl)

/-- A name cited in a comment stays on its line. -/
lemma newline_not_mem_citedName (s : String) : '\n' ∉ (citedName s).toList := by
  unfold citedName
  split
  · decide
  · rw [String.toList_ofList, List.mem_append, List.mem_flatMap]
    rintro (h | ⟨c, -, h⟩)
    · exact newline_not_mem_escapeChar _ _ h
    · exact newline_not_mem_escapeChar _ _ h

/-! ### Text put together from pieces -/

@[simp]
lemma toString_text (s : String) : toString s = s := rfl

/-- Text without numbered words. -/
def IdleText (s : String) : Prop :=
  Idle s.toList

/-- Text whose numbered words are among those allowed. -/
def CitesText (P : String → Prop) (s : String) : Prop :=
  Cites P s.toList

/-- Such text, if no word at its end can go on. -/
structure ShutText (P : String → Prop) (s : String) : Prop where
  cites : CitesText P s
  shut : shuts (strip .code s.toList) = true

section

variable {P Q : String → Prop} {x y : String}

namespace IdleText

lemma of_idle {l : List Char} (hl : Idle l) : IdleText (String.ofList l) := by
  rwa [IdleText, String.toList_ofList]

lemma literal {l : List Char} (hl : decide (Idle l) = true) : IdleText (String.ofList l) :=
  of_idle (of_decide_eq_true hl)

lemma text (hx : IdleText x) (hy : IdleText y) : IdleText (x ++ y) := by
  rw [IdleText, String.toList_append]
  exact hx.append hy

lemma lit (hx : IdleText x) {l : List Char} (hl : decide (Idle l) = true) :
    IdleText (x ++ String.ofList l) :=
  hx.text (.literal hl)

lemma behind (hx : IdleText x) {l : List Char} (hl : decide (Idle l) = true) :
    IdleText (String.ofList l ++ x) :=
  (literal hl).text hx

lemma cites (h : IdleText x) : CitesText P x :=
  Idle.cites h

end IdleText

/-- Words of two texts are kept apart by the end of the first one. -/
lemma ShutText.append (hx : ShutText P x) (hy : CitesText P y) : CitesText P (x ++ y) := by
  rw [CitesText, String.toList_append]
  exact Cites.join hx.cites hy (words_append_of_shuts hx.shut _)

lemma ShutText.text (hx : ShutText P x) (hy : IdleText y) : CitesText P (x ++ y) :=
  hx.append hy.cites

lemma ShutText.literal {l : List Char} (hl : decide (Idle l ∧ shuts l = true) = true) :
    ShutText P (String.ofList l) := by
  obtain ⟨hidle, hshuts⟩ := of_decide_eq_true hl
  refine ⟨(IdleText.of_idle hidle).cites, ?_⟩
  rw [String.toList_ofList, hidle.strip, hshuts]

lemma shuts_append {cs ds : List Char} (h : ds ≠ []) : shuts (cs ++ ds) = shuts ds := by
  rw [shuts, shuts, List.getLast?_append_of_ne_nil _ h]

lemma opens_append {x : List Char} (hx : x ≠ []) (y : List Char) : opens (x ++ y) = opens x := by
  cases x with
  | nil => exact absurd rfl hx
  | cons c x => rfl

/-- Text that no word can go on into. -/
lemma CitesText.last (hx : CitesText P x) {l : List Char}
    (hl : decide (Idle l ∧ opens l = true) = true) : CitesText P (x ++ String.ofList l) := by
  obtain ⟨hidle, hopens⟩ := of_decide_eq_true hl
  rw [CitesText, String.toList_append, String.toList_ofList]
  exact Cites.before_opening hx hidle.cites hopens

lemma CitesText.lit (hx : CitesText P x) {l : List Char}
    (hl : decide (Idle l ∧ opens l = true ∧ shuts l = true ∧ l ≠ []) = true) :
    ShutText P (x ++ String.ofList l) := by
  obtain ⟨hidle, hopens, hshuts, hne⟩ := of_decide_eq_true hl
  refine ⟨hx.last (decide_eq_true ⟨hidle, hopens⟩), ?_⟩
  rw [String.toList_append, String.toList_ofList, strip_append, Cites.ends hx, hidle.strip,
    shuts_append hne, hshuts]

/-- A string literal keeps the words around it apart. -/
lemma CitesText.quoted (hx : CitesText P x) (hy : IsLiteral y.toList) : ShutText P (x ++ y) := by
  constructor
  · rw [CitesText, String.toList_append]
    refine Cites.join hx hy.cites (words_append_of_opens _ ?_)
    rw [hy.strip]
    intro c hc
    cases hc
    decide
  · rw [String.toList_append, strip_append, Cites.ends hx, hy.strip, shuts_append (by decide)]
    decide

/-- Text with a part at its end that has no numbered words, also if more of that kind comes. -/
def TailText (P : String → Prop) (s : String) : Prop :=
  ∃ x y, s = x ++ y ∧ CitesText P x ∧ IdleText y ∧ opens y.toList = true ∧ y.toList ≠ []

lemma CitesText.tail (hx : CitesText P x) {l : List Char}
    (hl : decide (Idle l ∧ opens l = true ∧ l ≠ []) = true) : TailText P (x ++ String.ofList l) := by
  obtain ⟨hidle, hopens⟩ := of_decide_eq_true hl
  refine ⟨x, String.ofList l, rfl, hx, .of_idle hidle, ?_⟩
  rw [String.toList_ofList]
  exact hopens

namespace TailText

lemma text (hx : TailText P x) (hy : IdleText y) : TailText P (x ++ y) := by
  obtain ⟨u, v, rfl, hu, hv, hopens, hne⟩ := hx
  refine ⟨u, v ++ y, String.append_assoc, hu, hv.text hy, ?_⟩
  rw [String.toList_append, opens_append hne]
  exact ⟨hopens, List.append_ne_nil_of_left_ne_nil hne _⟩

lemma lit (hx : TailText P x) {l : List Char} (hl : decide (Idle l) = true) :
    TailText P (x ++ String.ofList l) :=
  hx.text (.literal hl)

lemma cites (h : TailText P x) : CitesText P x := by
  obtain ⟨u, v, rfl, hu, hv, hopens, -⟩ := h
  rw [CitesText, String.toList_append]
  exact Cites.before_opening hu (Idle.cites hv) hopens

end TailText

lemma CitesText.mono (h : CitesText P x) (hPQ : ∀ w, P w → Q w) : CitesText Q x :=
  Cites.mono h hPQ

end

/-! ### Lines of a sheet -/

/-- The text of a line. -/
def Line.text : Line → String
  | plain text | opening text | closing text | reopening text | verbatim text => text
  | blank => ""

/-- The words of a line. -/
def Line.words (line : Line) : List String :=
  Text.words (strip .code line.text.toList)

/-- The line ends in the code or in a comment, and it is only one line. -/
structure Line.Neat (line : Line) : Prop where
  ends : Mode.code.after line.text.toList = .code ∨ Mode.code.after line.text.toList = .comment
  oneLine : '\n' ∉ strip .code line.text.toList
  written : ∀ text, line ≠ .verbatim text

/-- The line is neat, and its numbered words are among those allowed. -/
structure Line.Clean (P : String → Prop) (line : Line) : Prop where
  neat : line.Neat
  cited : ∀ w ∈ line.words, HasIndex w.toList → P w

section

variable {P Q : String → Prop}

lemma Line.Clean.mono {line : Line} (h : line.Clean P) (hPQ : ∀ w, P w → Q w) : line.Clean Q :=
  ⟨h.neat, fun w hw hindex => hPQ w (h.cited w hw hindex)⟩

lemma clean_of_cites {line : Line} (h : CitesText P line.text)
    (hwritten : ∀ text, line ≠ .verbatim text) : line.Clean P :=
  ⟨⟨.inl h.ends, h.oneLine, hwritten⟩, h.cited⟩

/-- A line whose text is fixed. -/
lemma clean_literal {line : Line} (h : IdleText line.text)
    (hwritten : ∀ text, line ≠ .verbatim text) : line.Clean P :=
  clean_of_cites h.cites hwritten

/-- A comment says nothing. -/
lemma clean_comment {text : String} {cs : List Char} (htext : text.toList = '/' :: '/' :: cs)
    (h : '\n' ∉ cs) : (Line.plain text).Clean P := by
  obtain ⟨hafter, hstrip⟩ := skipped_comment h
  have hnone : strip .code text.toList = [] := by
    rw [htext]
    exact hstrip
  refine ⟨⟨.inr ?_, ?_, nofun⟩, fun w hw => ?_⟩
  · rw [Line.text, htext]
    exact hafter
  · rw [Line.text, hnone]
    exact List.not_mem_nil
  · rw [Line.words, Line.text, hnone] at hw
    exact absurd hw List.not_mem_nil

end

/-! ### First words -/

/-- The text begins with these words, whatever stands behind it. -/
def Begins (ws : List String) (s : String) : Prop :=
  ∀ y, ws <+: words (strip .code (s.toList ++ y))

section

variable {ws : List String} {s name : String}

lemma Begins.plain (h : Begins ws s) : ws <+: (Line.plain s).words := by
  have hnil := h []
  rwa [List.append_nil] at hnil

lemma Begins.opening (h : Begins ws s) : ws <+: (Line.opening s).words :=
  h.plain

lemma Begins.append (h : Begins ws s) (t : String) : Begins ws (s ++ t) := by
  intro y
  rw [String.toList_append, List.append_assoc]
  exact h _

lemma Begins.behind (h : Begins ws s) {l : List Char} {vs : List String}
    (hl : decide (Idle l ∧ shuts l = true) = true) (hvs : words l ++ ws = vs) :
    Begins vs (String.ofList l ++ s) := by
  obtain ⟨hidle, hshuts⟩ := of_decide_eq_true hl
  intro y
  rw [String.toList_append, String.toList_ofList, List.append_assoc, strip_append, hidle.after,
    hidle.strip, words_append_of_shuts hshuts, ← hvs]
  exact (List.prefix_append_right_inj _).2 (h y)

/-- A word with something behind it that it cannot go on into. -/
lemma words_word (hname : IsWord name.toList) {y : List Char} (hy : opens y = true) :
    words (strip .code (name.toList ++ y)) = name :: words (strip .code y) := by
  obtain ⟨hafter, hstrip⟩ := hname.strip
  rw [strip_append, hafter, hstrip, words_append_of_opens _ (Cites.head_strip_of_opens hy),
    hname.words, String.ofList_toList]
  rfl

lemma begins_before (hname : IsWord name.toList) (hopens : opens s.toList = true)
    (hne : s.toList ≠ []) : Begins [name] (name ++ s) := by
  intro y
  rw [String.toList_append, List.append_assoc, words_word hname (by rw [opens_append hne, hopens])]
  exact List.prefix_append [name] _

lemma begins_word (hname : IsWord name.toList) {l : List Char}
    (hl : decide (opens l = true ∧ l ≠ []) = true) : Begins [name] (name ++ String.ofList l) := by
  obtain ⟨hopens, hne⟩ := of_decide_eq_true hl
  exact begins_before hname (by rw [String.toList_ofList, hopens]) (by rwa [String.toList_ofList])

/-- A word, something that keeps it apart, and more words. -/
lemma Begins.cons (h : Begins ws s) (hname : IsWord name.toList) {l : List Char} {vs : List String}
    (hl : decide (Idle l ∧ opens l = true ∧ shuts l = true ∧ l ≠ []) = true)
    (hvs : words l ++ ws = vs) : Begins (name :: vs) (name ++ String.ofList l ++ s) := by
  obtain ⟨hidle, hopens, hshuts, hne⟩ := of_decide_eq_true hl
  intro y
  rw [String.append_assoc, String.toList_append, List.append_assoc, words_word hname ?_]
  · exact (List.prefix_append_right_inj [name]).2 (h.behind (decide_eq_true ⟨hidle, hshuts⟩) hvs y)
  · rw [String.toList_append, String.toList_ofList, List.append_assoc, opens_append hne, hopens]

end

lemma exists_indent (text : String) (level : Nat) :
    ∃ indent, ∀ s : Sheet, s.level = level → (s.line text).text.toList =
      s.text.toList ++ (List.replicate indent ' ' ++ text.toList ++ ['\n']) := by
  by_cases hempty : text.isEmpty = true
  · refine ⟨0, fun s _ => ?_⟩
    have htext : text = "" := String.isEmpty_iff.1 hempty
    simp [Sheet.line, htext]
  · refine ⟨4 * level, fun s hs => ?_⟩
    simp [Sheet.line, hempty, hs]

/-- What a line adds to a sheet: blanks, its text, and the end of the line. -/
lemma exists_write {line : Line} (hwritten : ∀ text, line ≠ .verbatim text) (level : Nat) :
    ∃ indent level', ∀ s : Sheet, s.level = level →
      (s.write line).level = level' ∧ (s.write line).text.toList =
        s.text.toList ++ (List.replicate indent ' ' ++ line.text.toList ++ ['\n']) := by
  cases line with
  | verbatim text => exact absurd rfl (hwritten text)
  | blank => exact ⟨0, level, fun s hs => ⟨hs, by simp [Sheet.write, Line.text]⟩⟩
  | plain text =>
    obtain ⟨indent, hindent⟩ := exists_indent text level
    exact ⟨indent, level, fun s hs => ⟨(Sheet.level_line s text).trans hs, hindent s hs⟩⟩
  | opening text =>
    obtain ⟨indent, hindent⟩ := exists_indent text level
    refine ⟨indent, level + 1, fun s hs => ⟨?_, hindent s hs⟩⟩
    simp only [Sheet.write, Sheet.level_line, hs]
  | closing text =>
    obtain ⟨indent, hindent⟩ := exists_indent text (level - 1)
    refine ⟨indent, level - 1, fun s hs =>
      ⟨?_, hindent { s with level := s.level - 1 } (by simp [hs])⟩⟩
    simp only [Sheet.write, Sheet.level_line, hs]
  | reopening text =>
    obtain ⟨indent, hindent⟩ := exists_indent text (level - 1)
    refine ⟨indent, level - 1 + 1, fun s hs =>
      ⟨?_, hindent { s with level := s.level - 1 } (by simp [hs])⟩⟩
    simp only [Sheet.write, Sheet.level_line, hs]

lemma words_indent (n : Nat) (cs : List Char) : words (List.replicate n ' ' ++ cs) = words cs := by
  induction n with
  | zero => rfl
  | succ n ih => rw [List.replicate_succ, List.cons_append, words_cons (by decide), ih]

/-- A line in front of a text is read on its own. -/
lemma Line.Neat.wordLines {line : Line} (h : line.Neat) (indent : Nat) (rest : List Char) :
    (strip .code (List.replicate indent ' ' ++ line.text.toList ++ ['\n'] ++ rest)).splitOn '\n' =
      (List.replicate indent ' ' ++ strip .code line.text.toList) ::
        (strip .code rest).splitOn '\n' := by
  have hblanks : ∀ c ∈ List.replicate indent ' ', c ≠ '\x22' ∧ c ≠ '/' := by
    intro c hc
    cases List.eq_of_mem_replicate hc
    decide
  obtain ⟨hafter, hstrip⟩ := read_of_chars hblanks
  have hend : ∀ mode, mode = .code ∨ mode = .comment →
      strip mode ('\n' :: rest) = '\n' :: strip .code rest := by
    rintro mode (rfl | rfl) <;> rfl
  rw [List.append_assoc, List.append_assoc, strip_append, hafter, hstrip, strip_append,
    List.singleton_append, hend _ h.ends, ← List.append_assoc]
  refine List.splitOn_append_cons_self_of_not_mem ?_ _
  rw [List.mem_append, not_or]
  exact ⟨fun hmem => absurd (List.eq_of_mem_replicate hmem) (by decide), h.oneLine⟩

/-- The words of printed lines are those of the lines. -/
lemma wordLines_print (level : Nat) {lines : List Line} (h : ∀ line ∈ lines, line.Neat) :
    wordLines (print level lines) = lines.map Line.words ++ [[]] := by
  -- the text is what was there before and a part that depends on the lines and the level only
  have hbody : ∃ body : List Char,
      (∀ s : Sheet, s.level = level →
        (lines.foldl Sheet.write s).text.toList = s.text.toList ++ body) ∧
        ((strip .code body).splitOn '\n').map words = lines.map Line.words ++ [[]] := by
    induction lines generalizing level with
    | nil => exact ⟨[], fun s _ => (List.append_nil _).symm, rfl⟩
    | cons line lines ih =>
      obtain ⟨hline, hlines⟩ := List.forall_mem_cons.1 h
      obtain ⟨indent, level', hwrite⟩ := exists_write hline.written level
      obtain ⟨body, hbody, hwords⟩ := ih level' hlines
      refine ⟨List.replicate indent ' ' ++ line.text.toList ++ ['\n'] ++ body, fun s hs => ?_, ?_⟩
      · obtain ⟨hlevel, htext⟩ := hwrite s hs
        rw [List.foldl_cons, hbody _ hlevel, htext, List.append_assoc s.text.toList]
      · rw [hline.wordLines, List.map_cons, hwords, words_indent]
        rfl
  obtain ⟨body, hbody, hwords⟩ := hbody
  rw [wordLines, print, hbody _ rfl]
  exact hwords

end WasmAot.Text
