/-
# Data segments survive as literals

The bytes of a data segment are written as the body of a byte-string literal.  This file reads such
a literal the way a lexer does, one byte at a time up to the first quotation mark that no escape
covers (`readLiteral`), and shows that what is read is what was written.

The text of a byte is one, two or four characters long, and the texts stand side by side without
anything in between.  What settles sequences is that a byte is read back from its text whatever
follows (`readByte_escapeByte`): a backslash never joins with the text of the next byte, nor do the
digits of a hexadecimal escape.
-/
import Mathlib.Tactic.Lemma
import Mathlib.Tactic.SplitIfs
import WasmAot.Artifact.Basic

namespace WasmAot.Text

/-! ### Reading a literal -/

/-- The value of a hexadecimal digit. -/
def hexValue? (c : Char) : Option Nat :=
  if '0' ≤ c ∧ c ≤ '9' then some (c.toNat - '0'.toNat)
  else if 'a' ≤ c ∧ c ≤ 'f' then some (c.toNat - 'a'.toNat + 10)
  else if 'A' ≤ c ∧ c ≤ 'F' then some (c.toNat - 'A'.toNat + 10)
  else none

/-- The byte that a backslash and this character stand for. -/
def escaped? (c : Char) : Option UInt8 :=
  if c = 't' then some 0x09
  else if c = 'r' then some 0x0d
  else if c = 'n' then some 0x0a
  else if c = '\x27' ∨ c = '\x22' ∨ c = backslash then some (UInt8.ofNat c.toNat)
  else none

/-- Printable ASCII. -/
def isAsciiPrintable (c : Char) : Bool :=
  0x20 ≤ c.toNat && c.toNat < 0x7f

/-- Reads one byte of a literal; gives the characters behind it. -/
def readByte : List Char → Option (UInt8 × List Char)
  | [] => none
  | c :: rest =>
    if c = backslash then
      match rest with
      | 'x' :: high :: low :: rest => do
        let high ← hexValue? high
        let low ← hexValue? low
        return (UInt8.ofNat (16 * high + low), rest)
      | e :: rest => (escaped? e).map fun b => (b, rest)
      | [] => none
    else if isAsciiPrintable c && c ≠ '\x22' then some (UInt8.ofNat c.toNat, rest)
    else none

lemma length_of_readByte {cs rest : List Char} {b : UInt8} (h : readByte cs = some (b, rest)) :
    rest.length < cs.length := by
  unfold readByte at h
  split at h
  · cases h
  · split at h
    · split at h
      · simp only [Option.bind_eq_bind, Option.bind_eq_some_iff] at h
        obtain ⟨_, -, _, -, heq⟩ := h
        cases heq
        simp only [List.length_cons]
        omega
      · obtain ⟨_, -, heq⟩ := Option.map_eq_some_iff.1 h
        cases heq
        simp only [List.length_cons]
        omega
      · cases h
    · split at h
      · cases h
        exact Nat.lt_succ_self _
      · cases h

/-- Reads the bytes of a literal up to the quotation mark that ends it; gives the characters behind
that. -/
def readLiteral (cs : List Char) : Option (List UInt8 × List Char) :=
  if cs.head? = some '\x22' then some ([], cs.tail)
  else
    match _h : readByte cs with
    | some (b, rest) => (readLiteral rest).map fun read => (b :: read.1, read.2)
    | none => none
termination_by cs.length
decreasing_by exact length_of_readByte _h

/-! ### One byte -/

lemma hexValue?_digitChar : ∀ n < 16, hexValue? n.digitChar = some n := by
  decide

lemma toNat_ofNat_toNat (b : UInt8) : (Char.ofNat b.toNat).toNat = b.toNat := by
  have hvalid : b.toNat.isValidChar := .inl (by have := b.toNat_lt; omega)
  rw [Char.ofNat, dif_pos hvalid]
  rfl

lemma eq_of_ofNat_toNat {b b' : UInt8} (h : Char.ofNat b.toNat = Char.ofNat b'.toNat) : b = b' := by
  have hcode := congrArg Char.toNat h
  rw [toNat_ofNat_toNat, toNat_ofNat_toNat] at hcode
  exact UInt8.toNat_inj.1 hcode

/-- A byte that is written as a character for itself. -/
lemma ofNat_plain {b : UInt8} (hescape : ¬ (b = 0x27 || b = 0x22 || b = 0x5c) = true)
    (hrange : (0x20 ≤ b && b < 0x7f) = true) :
    Char.ofNat b.toNat ≠ backslash ∧ Char.ofNat b.toNat ≠ '\x22' ∧
      isAsciiPrintable (Char.ofNat b.toNat) = true := by
  simp only [Bool.or_eq_true, decide_eq_true_eq, not_or] at hescape
  refine ⟨fun h => hescape.2 (eq_of_ofNat_toNat h), fun h => hescape.1.2 (eq_of_ofNat_toNat h), ?_⟩
  simpa [isAsciiPrintable, toNat_ofNat_toNat, UInt8.le_iff_toNat_le, UInt8.lt_iff_toNat_lt]
    using hrange

/-- Whatever follows the text of a byte, the byte is read from this text and nothing else. -/
lemma readByte_escapeByte (b : UInt8) (rest : List Char) :
    readByte (escapeByte b ++ rest) = some (b, rest) := by
  unfold escapeByte
  split_ifs with h₀ h₁ h₂ h₃ h₄
  · subst h₀
    rfl
  · subst h₁
    rfl
  · subst h₂
    rfl
  · simp only [Bool.or_eq_true, decide_eq_true_eq] at h₃
    rcases h₃ with (rfl | rfl) | rfl <;> rfl
  · obtain ⟨hback, hquote, hplain⟩ := ofNat_plain h₃ h₄
    simp only [List.cons_append, List.nil_append, readByte, if_neg hback, hplain, hquote, ne_eq,
      not_false_eq_true, decide_true, Bool.and_self, if_true, toNat_ofNat_toNat, UInt8.ofNat_toNat]
  -- every other byte is written with two digits
  · have hlt : b.toNat < 256 := b.toNat_lt
    have hhigh := hexValue?_digitChar (b.toNat / 16) (by omega)
    have hlow := hexValue?_digitChar (b.toNat % 16) (by omega)
    simp only [List.cons_append, List.nil_append, readByte, if_true]
    simp only [hhigh, hlow, Option.bind_eq_bind, Option.bind_some, Nat.div_add_mod,
      UInt8.ofNat_toNat]
    rfl

/-! ### A whole literal -/

lemma readLiteral_quote (rest : List Char) : readLiteral ('\x22' :: rest) = some ([], rest) := by
  rw [readLiteral, if_pos List.head?_cons, List.tail_cons]

lemma head?_escapeByte (b : UInt8) (rest : List Char) :
    (escapeByte b ++ rest).head? ≠ some '\x22' := by
  intro h
  have hread := readByte_escapeByte b rest
  cases hcs : escapeByte b ++ rest with
  | nil =>
    rw [hcs] at h
    cases h
  | cons c cs =>
    rw [hcs] at h hread
    cases h
    cases hread

lemma readLiteral_escapeByte (b : UInt8) (rest : List Char) :
    readLiteral (escapeByte b ++ rest) =
      (readLiteral rest).map fun read => (b :: read.1, read.2) := by
  rw [readLiteral, if_neg (head?_escapeByte b rest)]
  split
  · rename_i b' rest' hread
    cases (readByte_escapeByte b rest).symm.trans hread
    rfl
  · rename_i hread
    cases (readByte_escapeByte b rest).symm.trans hread

/-- The literal ends at the quotation mark behind the text of the bytes. -/
lemma readLiteral_byteChars (bytes : List UInt8) (rest : List Char) :
    readLiteral (byteChars bytes ++ '\x22' :: rest) = some (bytes, rest) := by
  induction bytes with
  | nil => exact readLiteral_quote rest
  | cons b bytes ih =>
    rw [byteChars, List.flatMap_cons, List.append_assoc, readLiteral_escapeByte, ← byteChars, ih]
    rfl

lemma byteLiteral_injective : Function.Injective byteLiteral := by
  intro bytes bytes' h
  have hchars : byteChars bytes = byteChars bytes' := String.ofList_injective h
  have hread := readLiteral_byteChars bytes []
  rw [hchars, readLiteral_byteChars] at hread
  cases hread
  rfl

/-! ### Quotation marks and backslashes -/

/-- How many backslashes stand at the end of a text.  A character behind the text is escaped if
their number is odd. -/
def lastBackslashes (cs : List Char) : Nat :=
  (cs.reverse.takeWhile (· = backslash)).length

lemma lastBackslashes_append {cs : List Char} (h : lastBackslashes cs % 2 = 0) (ds : List Char) :
    lastBackslashes (cs ++ ds) % 2 = lastBackslashes ds % 2 := by
  simp only [lastBackslashes] at h ⊢
  rw [List.reverse_append, List.takeWhile_append]
  split
  · rename_i hall
    rw [List.length_append, hall]
    omega
  · rfl

/-- The texts of bytes: a character for itself, a backslash and a character, or a backslash, an `x`
and two digits. -/
inductive ByteText : List Char → Prop
  | plain {c : Char} (hplain : isAsciiPrintable c = true) (hquote : c ≠ '\x22')
      (hback : c ≠ backslash) : ByteText [c]
  | escape {c : Char} (hplain : isAsciiPrintable c = true) : ByteText [backslash, c]
  | hex {high low : Nat} (hhigh : high < 16) (hlow : low < 16) :
      ByteText [backslash, 'x', high.digitChar, low.digitChar]

lemma byteText_escapeByte (b : UInt8) : ByteText (escapeByte b) := by
  unfold escapeByte
  split_ifs with h₀ h₁ h₂ h₃ h₄
  · exact .escape rfl
  · exact .escape rfl
  · exact .escape rfl
  · simp only [Bool.or_eq_true, decide_eq_true_eq] at h₃
    rcases h₃ with (rfl | rfl) | rfl <;> exact .escape rfl
  · obtain ⟨hback, hquote, hplain⟩ := ofNat_plain h₃ h₄
    exact .plain hplain hquote hback
  · have hlt : b.toNat < 256 := b.toNat_lt
    exact .hex (by omega) (by omega)

namespace ByteText

variable {text : List Char}

lemma digitChar_plain : ∀ n < 16,
    isAsciiPrintable n.digitChar = true ∧ n.digitChar ≠ '\x22' ∧ n.digitChar ≠ backslash := by
  decide

lemma printable (h : ByteText text) : ∀ c ∈ text, isAsciiPrintable c = true := by
  cases h with
  | plain hplain _ _ => simpa using hplain
  | escape hplain => simpa using ⟨rfl, hplain⟩
  | hex hhigh hlow =>
    simpa using ⟨rfl, rfl, (digitChar_plain _ hhigh).1, (digitChar_plain _ hlow).1⟩

/-- Behind the text of a byte no backslash is left that could belong to what follows. -/
lemma lastBackslashes_even (h : ByteText text) : lastBackslashes text % 2 = 0 := by
  cases h with
  | plain _ _ hback => simp [lastBackslashes, hback]
  | @escape c _ => by_cases hback : c = backslash <;> simp [lastBackslashes, hback]
  | @hex high low _ hlow => simp [lastBackslashes, (digitChar_plain low hlow).2.2]

/-- A quotation mark in the text of a byte stands behind a backslash. -/
lemma quote_escaped (h : ByteText text) {before after : List Char}
    (htext : text = before ++ '\x22' :: after) : before = [backslash] := by
  have hmem : '\x22' ∈ text := by simp [htext]
  cases h with
  | plain _ hquote _ => exact absurd (List.mem_singleton.1 hmem).symm hquote
  | escape _ =>
    rcases before with _ | ⟨c, _ | ⟨d, before⟩⟩
    · exact absurd (List.cons.inj htext).1 (by decide)
    · rw [← (List.cons.inj htext).1]
    · simp at htext
  | hex hhigh hlow =>
    have hother := (digitChar_plain _ hhigh).2.1.symm
    have hother' := (digitChar_plain _ hlow).2.1.symm
    simp [backslash, hother, hother'] at hmem

end ByteText

lemma lastBackslashes_byteChars (bytes : List UInt8) :
    lastBackslashes (byteChars bytes) % 2 = 0 := by
  induction bytes with
  | nil => rfl
  | cons b bytes ih =>
    rw [byteChars, List.flatMap_cons,
      lastBackslashes_append (byteText_escapeByte b).lastBackslashes_even]
    exact ih

/-- In the text of bytes every quotation mark is escaped. -/
lemma quote_escaped_byteChars {bytes : List UInt8} {before after : List Char}
    (h : byteChars bytes = before ++ '\x22' :: after) : lastBackslashes before % 2 = 1 := by
  induction bytes generalizing before with
  | nil => simp [byteChars] at h
  | cons b bytes ih =>
    have hb := byteText_escapeByte b
    rw [byteChars, List.flatMap_cons, ← byteChars, List.append_eq_append_iff] at h
    rcases h with ⟨more, rfl, hrest⟩ | ⟨more, hfirst, hrest⟩
    · rw [lastBackslashes_append hb.lastBackslashes_even]
      exact ih hrest
    · cases more with
      | nil =>
        have hlast : lastBackslashes [] % 2 = 1 := ih hrest.symm
        cases hlast
      | cons c more =>
        -- the mark is in the text of the first byte
        rw [← (List.cons.inj hrest).1] at hfirst
        rw [hb.quote_escaped hfirst]
        rfl

lemma isAsciiPrintable_of_mem_byteChars {bytes : List UInt8} {c : Char} (h : c ∈ byteChars bytes) :
    isAsciiPrintable c = true := by
  obtain ⟨b, -, hc⟩ := List.mem_flatMap.1 h
  exact (byteText_escapeByte b).printable c hc

/-- A text is the body of a byte-string literal for the bytes. -/
structure IsBody (bytes : List UInt8) (text : List Char) : Prop where
  /-- the literal ends at the quotation mark behind the text, and it is read as the bytes -/
  reads : ∀ rest, readLiteral (text ++ '\x22' :: rest) = some (bytes, rest)
  /-- a quotation mark in the text is escaped -/
  quotes : ∀ before after, text = before ++ '\x22' :: after → lastBackslashes before % 2 = 1
  /-- between the texts of two bytes, the second one is not escaped by the first -/
  joints : ∀ before after, bytes = before ++ after →
    text = (byteLiteral before).toList ++ (byteLiteral after).toList ∧
      lastBackslashes (byteLiteral before).toList % 2 = 0
  /-- so there is no line break in the text -/
  printable : ∀ c ∈ text, isAsciiPrintable c = true

lemma isBody_byteLiteral (bytes : List UInt8) : IsBody bytes (byteLiteral bytes).toList := by
  simp only [byteLiteral, String.toList_ofList]
  refine ⟨readLiteral_byteChars bytes, fun before after => quote_escaped_byteChars, ?_,
    fun c => isAsciiPrintable_of_mem_byteChars⟩
  rintro before after rfl
  simp only [byteLiteral, String.toList_ofList]
  exact ⟨List.flatMap_append, lastBackslashes_byteChars before⟩

end WasmAot.Text

namespace WasmAot.Artifact

open Text

/-! ### The constants of a unit -/

/-- The text behind a given beginning. -/
def textBehind (start text : List Char) : Option (List Char) :=
  if start <+: text then some (text.drop start.length) else none

/-- The bytes of the data segment that a line declares. -/
def declaredData : Text.Line → Option (List UInt8)
  | .plain text => do
    let rest ← textBehind "static DATA_".toList text.toList
    let rest ← textBehind ": &[u8] = b\"".toList (rest.dropWhile Char.isDigit)
    let (bytes, rest) ← readLiteral rest
    if rest = [';'] then some bytes else none
  | _ => none

lemma textBehind_append (start rest : List Char) :
    textBehind start (start ++ rest) = some rest := by
  rw [textBehind, if_pos (List.prefix_append start rest), List.drop_left]

lemma dropWhile_toString (k : Nat) (rest : List Char)
    (hrest : rest.dropWhile Char.isDigit = rest) :
    ((toString k).toList ++ rest).dropWhile Char.isDigit = rest := by
  refine (List.dropWhile_append_of_pos fun c hc => ?_).trans hrest
  exact Nat.isDigit_of_mem_toDigits (by decide) (by decide) (Nat.toList_repr ▸ hc)

lemma declaredData_dataConstant (k : Nat) (bytes : List UInt8) :
    declaredData (.plain ("static " ++ dataConstant k bytes ++ ";")) = some bytes := by
  have htext : ("static " ++ dataConstant k bytes ++ ";").toList =
      "static DATA_".toList ++ ((toString k).toList ++ (": &[u8] = b\"".toList ++
        (byteChars bytes ++ ['\x22', ';']))) := by
    change ("static " ++ ("DATA_" ++ toString k ++ ": &[u8] = b\"" ++ byteLiteral bytes ++ "\"") ++
      ";").toList = _
    simp only [String.toList_append, byteLiteral, String.toList_ofList, List.append_assoc]
    rfl
  have hdigits := dropWhile_toString k
    (": &[u8] = b\"".toList ++ (byteChars bytes ++ ['\x22', ';'])) rfl
  simp only [declaredData, htext, textBehind_append, hdigits, readLiteral_byteChars,
    Option.bind_eq_bind, Option.bind_some, if_true]

/-- A line that starts in another way declares no data. -/
lemma declaredData_other {text : String} (other : List Char) (hother : other <+: text.toList)
    (hlength : "static DATA_".toList.length = other.length)
    (hne : "static DATA_".toList ≠ other) : declaredData (.plain text) = none := by
  have hnone : textBehind "static DATA_".toList text.toList = none := by
    refine if_neg fun hstart => hne ?_
    have hshort := List.prefix_of_prefix_length_le hstart hother (Nat.le_of_eq hlength)
    exact hshort.eq_of_length hlength
  simp only [declaredData, hnone, Option.bind_eq_bind, Option.bind_none]

lemma declaredData_typeConstant (n : Nat) (type : FuncType) :
    declaredData (.plain ("static " ++ typeConstant n type ++ ";")) = none := by
  refine declaredData_other ("static ".toList ++ "TYPE_".toList) ?_ (by decide) (by decide)
  simp only [typeConstant, toString, String.toList_append, List.append_assoc]
  exact (List.prefix_append_right_inj _).2 (List.prefix_append _ _)

lemma filterMap_constantLayout (text : String) :
    (constantLayout text).filterMap declaredData =
      (declaredData (.plain ("static " ++ text ++ ";"))).toList := by
  have hmark : declaredData (.plain "#[allow(dead_code)]") = none := rfl
  change [_, Text.Line.plain ("static " ++ text ++ ";")].filterMap declaredData = _
  cases hline : declaredData (.plain ("static " ++ text ++ ";")) with
  | none => rw [List.filterMap_cons_none hmark, List.filterMap_cons_none hline]; rfl
  | some bytes => rw [List.filterMap_cons_none hmark, List.filterMap_cons_some hline]; rfl

/-- The lines of the constants declare the data segments and nothing else that looks like one. -/
lemma declaredData_constants (data : List (List UInt8)) (types : List FuncType) :
    (constantsLayout data types).filterMap declaredData = data := by
  have hnone : declaredData (.plain ("static " ++ "NO_DATA: &[u8] = &[]" ++ ";")) = none :=
    declaredData_other "static NO_DA".toList (by decide) (by decide) (by decide)
  have hdata : (data.zipIdx.flatMap fun d => constantLayout (dataConstant d.2 d.1)).filterMap
      declaredData = data := by
    simp only [List.filterMap_flatMap, filterMap_constantLayout, declaredData_dataConstant,
      Option.toList_some, ← List.map_eq_flatMap, List.zipIdx_map_fst]
  have htypes : (types.zipIdx.flatMap fun t => constantLayout (typeConstant t.2 t.1)).filterMap
      declaredData = [] := by
    simp [List.filterMap_flatMap, filterMap_constantLayout, declaredData_typeConstant]
  have hblank : [Text.Line.blank].filterMap declaredData = [] := rfl
  rw [constantsLayout, List.filterMap_append, List.filterMap_append, List.filterMap_append,
    filterMap_constantLayout, hnone, hdata, htypes, hblank]
  simp

/-- The text of every list of bytes is the body of a literal for them, no two lists have the same
text, and from the constants of a unit all its data segments are read back, in order. -/
theorem dataSegments_readBack :
    (∀ bytes, IsBody bytes (byteLiteral bytes).toList) ∧ Function.Injective byteLiteral ∧
      ∀ data types, (constantsLayout data types).filterMap declaredData = data :=
  ⟨isBody_byteLiteral, byteLiteral_injective, declaredData_constants⟩

end WasmAot.Artifact
