/-
# The first free number

A name that is taken gets a number behind it, the first one from 2 on that makes it free.  A name with
a number is one of those that are set aside for the functions only if its base is `fn` or `ref_fn`,
because the number stands behind the last underscore.  For any other base it is taken only if it is in
use, and of one name more than there are in use one is free: the search ends there, if the counter has
room for that many numbers.

For `fn` and `ref_fn` there is no such number from zero on, whatever is in use.  The search goes on to
the end of the counter, and finds a number only if the counter then starts below zero.
-/
import Mathlib.Data.Finset.Dedup
import Mathlib.Order.Bounds.Basic
import Mathlib.Order.Interval.Finset.Nat
import WasmAot.Proofs.Naming.Identifiers

namespace WasmAot.Artifact

open Text

/-! ### Names that are set aside -/

/-- The name is `fn_` or `ref_fn_` with digits behind it. -/
def IsSetAside (name : String) : Prop :=
  ∃ digits : List Char, digits ≠ [] ∧ (∀ c ∈ digits, c.isDigit = true) ∧
    (name.toList = "fn_".toList ++ digits ∨ name.toList = "ref_fn_".toList ++ digits)

lemma isNumber_iff {cs : List Char} :
    isNumber cs = true ↔ cs ≠ [] ∧ ∀ c ∈ cs, c.isDigit = true := by
  simp [isNumber, isAsciiDigit]

/-- No name begins in both ways. -/
lemma isReserved_iff {name : String} : isReserved name = true ↔ IsSetAside name := by
  rw [isReserved, IsSetAside]
  cases href : stripStart? "ref_fn_".toList name.toList with
  | some rest =>
    rw [stripStart?_eq_some_iff] at href
    simp [href, isNumber_iff]
  | none =>
    cases hfn : stripStart? "fn_".toList name.toList with
    | some rest =>
      rw [stripStart?_eq_some_iff] at hfn
      simp [hfn, isNumber_iff]
    | none =>
      refine iff_of_false Bool.false_ne_true ?_
      rintro ⟨digits, -, -, hname | hname⟩
      · cases hfn.symm.trans (stripStart?_eq_some_iff.2 hname)
      · cases href.symm.trans (stripStart?_eq_some_iff.2 hname)

/-- A text with an underscore is determined by what stands before and behind its last one. -/
lemma eq_of_append_underscore {xs ys ds es : List Char} (hds : '_' ∉ ds) (hes : '_' ∉ es)
    (h : xs ++ '_' :: ds = ys ++ '_' :: es) : xs = ys ∧ ds = es := by
  rcases List.append_eq_append_iff.1 h with ⟨zs, rfl, hrest⟩ | ⟨zs, rfl, hrest⟩
  · cases zs with
    | nil =>
      cases hrest
      exact ⟨(List.append_nil _).symm, rfl⟩
    | cons z zs =>
      cases hrest
      simp at hds
  · cases zs with
    | nil =>
      cases hrest
      exact ⟨List.append_nil _, rfl⟩
    | cons z zs =>
      cases hrest
      simp at hes

lemma not_mem_of_digits {ds : List Char} (h : ∀ c ∈ ds, c.isDigit = true) : '_' ∉ ds := by
  intro hmem
  cases h '_' hmem

lemma isNumber_toString (n : Nat) : isNumber (toString n).toList = true := by
  have hall : ∀ d < 10, isAsciiDigit d.digitChar = true := by decide
  have hdigits : ∀ c ∈ Nat.toDigits 10 n, isAsciiDigit c = true := by
    intro c hc
    obtain ⟨d, hd, rfl⟩ := exists_digit_of_mem_toDigits (by decide) hc
    exact hall d hd
  rw [Nat.toString_eq_repr, Nat.toList_repr, isNumber, List.all_eq_true.2 hdigits,
    Bool.and_true, Bool.not_eq_true', List.isEmpty_eq_false_iff]
  exact Nat.toDigits_ne_nil

lemma digits_toString (n : Nat) :
    (toString n).toList ≠ [] ∧ ∀ c ∈ (toString n).toList, c.isDigit = true :=
  isNumber_iff.1 (isNumber_toString n)

lemma toList_negative (n : Nat) :
    (toString (Int.negSucc n)).toList = '-' :: (toString (n + 1)).toList := by
  have htext : toString (Int.negSucc n) = "-" ++ toString (n + 1) := rfl
  rw [htext, String.toList_append]
  rfl

lemma underscore_not_mem_toString (n : Int) : '_' ∉ (toString n).toList := by
  have hdigits (n : Nat) : '_' ∉ (toString n).toList :=
    not_mem_of_digits (digits_toString n).2
  cases n with
  | ofNat n => exact hdigits n
  | negSucc n =>
    rw [toList_negative, List.mem_cons, not_or]
    exact ⟨by decide, hdigits (n + 1)⟩

lemma toList_numbered (base : String) (n : Int) :
    (NamePool.numbered base n).toList = base.toList ++ '_' :: (toString n).toList := by
  simp [NamePool.numbered]

/-- The bases that no number from zero on makes free. -/
def reservedBases : List String :=
  ["fn", "ref_fn"]

/-- A name with a number is set aside for two bases only, and for these if there is no sign before the
number. -/
lemma isReserved_numbered_iff {base : String} {n : Int} :
    isReserved (NamePool.numbered base n) = true ↔ base ∈ reservedBases ∧ 0 ≤ n := by
  rw [isReserved_iff, IsSetAside, toList_numbered]
  constructor
  · rintro ⟨digits, -, hall, hname⟩
    have hsplit {front : String} (hfront : base.toList ++ '_' :: (toString n).toList =
        front.toList ++ '_' :: digits) : base = front ∧ (toString n).toList = digits :=
      (eq_of_append_underscore (underscore_not_mem_toString n) (not_mem_of_digits hall) hfront).imp
        String.toList_inj.1 id
    obtain ⟨hbase, hnumber⟩ : (base = "fn" ∨ base = "ref_fn") ∧ (toString n).toList = digits :=
      hname.elim (fun h => (hsplit h).imp .inl id) fun h => (hsplit h).imp .inr id
    refine ⟨List.mem_pair.2 hbase, ?_⟩
    cases n with
    | ofNat n => exact Int.natCast_nonneg n
    | negSucc n =>
      -- the sign is no digit
      rw [toList_negative] at hnumber
      cases hall '-' (hnumber ▸ List.mem_cons_self)
  · rintro ⟨hbase, hn⟩
    obtain ⟨n, rfl⟩ := Int.eq_ofNat_of_zero_le hn
    obtain ⟨hne, hdigits⟩ := digits_toString n
    refine ⟨_, hne, hdigits, ?_⟩
    rcases List.mem_pair.1 hbase with rfl | rfl
    · exact .inl rfl
    · exact .inr rfl

lemma isReserved_numbered {base : String} {n : Int}
    (h : base ∈ reservedBases → n < 0) :
    isReserved (NamePool.numbered base n) = false := by
  rw [Bool.eq_false_iff, ne_eq, isReserved_numbered_iff]
  rintro ⟨hbase, hn⟩
  exact absurd (h hbase) (by omega)

/-! ### The search -/

lemma Counter.half_le_size (c : Counter) : c.half ≤ c.size := by
  rw [half, size, Nat.one_shiftLeft, Nat.one_shiftLeft]
  exact Nat.pow_le_pow_right (by decide) (Nat.sub_le _ _)

lemma Counter.size_eq {c : Counter} (h : 3 ≤ c.bits) : c.size = 2 * c.half ∧ 4 ≤ c.half := by
  obtain ⟨bits, hbits⟩ := Nat.exists_eq_add_of_le' h
  have hsize : c.size = 2 ^ (bits + 2 + 1) := by rw [size, hbits, Nat.one_shiftLeft]
  have hhalf : c.half = 2 ^ (bits + 2) := by
    rw [half, hbits, Nat.one_shiftLeft]
    rfl
  rw [hsize, hhalf, Nat.pow_succ']
  exact ⟨rfl, Nat.pow_le_pow_right (n := 2) (by decide) (Nat.le_add_left 2 bits)⟩

lemma numbered_injective (base : String) : Function.Injective (NamePool.numbered base) := by
  have hdigits {m n : Nat} (h : (toString m).toList = (toString n).toList) : m = n := by
    rw [Nat.toString_eq_repr, Nat.toString_eq_repr, Nat.toList_repr, Nat.toList_repr] at h
    exact toDigits_injective h
  have hsign {m n : Nat} (h : '-' :: (toString m).toList = (toString n).toList) : False := by
    cases (digits_toString n).2 '-' (h ▸ List.mem_cons_self)
  intro m n h
  have htext : (toString m).toList = (toString n).toList := by
    rw [← String.toList_inj, toList_numbered, toList_numbered] at h
    exact (eq_of_append_underscore (underscore_not_mem_toString m) (underscore_not_mem_toString n)
      h).2
  cases m with
  | ofNat m =>
    cases n with
    | ofNat n => exact congrArg Int.ofNat (hdigits htext)
    | negSucc n =>
      rw [toList_negative] at htext
      exact (hsign htext.symm).elim
  | negSucc m =>
    rw [toList_negative] at htext
    cases n with
    | ofNat n => exact (hsign htext).elim
    | negSucc n =>
      rw [toList_negative] at htext
      exact congrArg Int.negSucc (Nat.succ.inj (hdigits (List.cons.inj htext).2))

namespace NamePool

variable {c : Counter} {pool : NamePool} {base : String}

/-- Numbers that are taken are passed over, as long as the counter has room. -/
lemma firstFree_skip {n : Int} {k : Nat} (tries : Nat) (hroom : n + k ≤ c.largest)
    (htaken : ∀ i < k, pool.isTaken (numbered base (n + i)) = true) :
    pool.firstFree c base n (k + tries) = pool.firstFree c base (n + k) tries := by
  induction k generalizing tries with
  | zero => simp
  | succ k ih =>
    have hnext : c.next (n + k) = some (n + (k + 1 : Nat)) := by
      rw [Counter.next, if_pos (by omega)]
      congr 1
      omega
    rw [Nat.add_right_comm k 1, Nat.add_assoc k, ih (tries + 1) (by omega)
      fun i hi => htaken i (by omega), firstFree, htaken k (by omega)]
    simp [hnext]

/-- As many numbers as there are names in use can be spoilt by them. -/
lemma le_card_of_used {n : Int} {k : Nat} (h : ∀ i < k, numbered base (n + i) ∈ pool.used) :
    k ≤ pool.used.toFinset.card := by
  have hcard : (Finset.range k).card ≤ pool.used.toFinset.card := by
    refine Finset.card_le_card_of_injOn (fun i => numbered base (n + i)) (fun i hi => ?_)
      fun i _ j _ heq => ?_
    · rw [Finset.mem_coe, Finset.mem_range] at hi
      exact List.mem_toFinset.2 (h i hi)
    · have hnumber := numbered_injective base heq
      omega
  rwa [Finset.card_range] at hcard

/-- From every number on there is a first one that makes the name new. -/
lemma exists_first_unused (pool : NamePool) (base : String) (n : Int) :
    ∃ k : Nat, numbered base (n + k) ∉ pool.used ∧ (∀ i < k, numbered base (n + i) ∈ pool.used) ∧
      k ≤ pool.used.toFinset.card := by
  have hsome : ∃ k : Nat, numbered base (n + k) ∉ pool.used := by
    -- of one name more than there are in use one is new
    by_contra hnone
    have hused (k : Nat) : numbered base (n + k) ∈ pool.used :=
      not_not.1 fun hk => hnone ⟨k, hk⟩
    have hcard := le_card_of_used (k := pool.used.toFinset.card + 1) fun i _ => hused i
    omega
  have hbefore (i : Nat) (hi : i < Nat.find hsome) : numbered base (n + i) ∈ pool.used :=
    not_not.1 (Nat.find_min hsome hi)
  exact ⟨Nat.find hsome, Nat.find_spec hsome, hbefore, le_card_of_used hbefore⟩

/-- If none of the names on the way is set aside, the search finds the first one that is new. -/
lemma firstFree_found (pool : NamePool) (base : String) {n : Int} {tries : Nat}
    (hopen : ∀ k ≤ pool.used.toFinset.card, isReserved (numbered base (n + k)) = false)
    (hroom : n + pool.used.toFinset.card ≤ c.largest) (htries : pool.used.toFinset.card < tries) :
    ∃ k : Nat, pool.firstFree c base n tries = .ok (numbered base (n + k)) ∧
      numbered base (n + k) ∉ pool.used ∧ (∀ i < k, numbered base (n + i) ∈ pool.used) ∧
        k ≤ pool.used.toFinset.card := by
  obtain ⟨k, hnew, hbefore, hcard⟩ := exists_first_unused pool base n
  refine ⟨k, ?_, hnew, hbefore, hcard⟩
  have htaken (i : Nat) (hi : i < k) : pool.isTaken (numbered base (n + i)) = true := by
    rw [isTaken, List.contains_iff_mem.2 (hbefore i hi), Bool.true_or]
  have hfree : pool.isTaken (numbered base (n + k)) = false := by
    rw [isTaken, hopen k hcard, Bool.or_false, ← Bool.not_eq_true, List.contains_iff_mem]
    exact hnew
  -- at least one try is left when the search comes to the name
  obtain ⟨rest, rfl⟩ := Nat.exists_eq_add_of_le (Nat.succ_le_of_lt (hcard.trans_lt htries))
  rw [Nat.succ_add_eq_add_succ, firstFree_skip (rest + 1) (by omega) htaken, firstFree, hfree]
  rfl

/-- A counter that stops gives no number below zero. -/
lemma nonneg_of_firstFree (hover : c.overflow = .stops) {n : Int} {tries : Nat} {name : String}
    (hn : 0 ≤ n) (h : pool.firstFree c base n tries = .ok name) :
    ∃ k : Nat, name = numbered base k := by
  induction tries generalizing n with
  | zero => cases h
  | succ tries ih =>
    rw [firstFree, Counter.next, hover] at h
    split at h
    · split at h
      · rename_i next hnext
        split at hnext
        · cases hnext
          exact ih (by omega) h
        · cases hnext
      · cases h
    · cases h
      exact ⟨n.toNat, by rw [Int.toNat_of_nonneg hn]⟩

/-- For other bases than `fn` and `ref_fn` the search finds the least number that makes the name
free. -/
lemma firstFree_eq_least (hbase : base ∉ reservedBases)
    (hroom : pool.used.toFinset.card + 2 ≤ c.largest) :
    ∃ n : Nat, pool.firstFree c base 2 c.size = .ok (numbered base n) ∧
      IsLeast {n : Nat | 2 ≤ n ∧ numbered base n ∉ pool.used} n ∧
      n ≤ pool.used.toFinset.card + 2 := by
  have hsize := c.half_le_size
  rw [Counter.largest] at hroom
  obtain ⟨k, hfound, hnew, hbefore, hcard⟩ := firstFree_found pool base (n := 2)
    (fun k _ => isReserved_numbered fun h => absurd h hbase)
    (by rw [Counter.largest]; omega : _ ≤ c.largest) (by omega : _ < c.size)
  have hnumber (i : Nat) : (2 : Int) + i = (i + 2 : Nat) := by omega
  rw [hnumber] at hfound hnew
  refine ⟨k + 2, hfound, ⟨⟨by omega, hnew⟩, fun m hm => ?_⟩, by omega⟩
  obtain ⟨hle, hunused⟩ := hm
  by_contra hless
  have hused := hbefore (m - 2) (by omega)
  rw [hnumber, Nat.sub_add_cancel hle] at hused
  exact hunused hused

/-- For `fn` and `ref_fn` the search comes to the end of the counter. -/
lemma firstFree_of_reserved (hbase : base ∈ reservedBases) {n : Int} {k : Nat}
    (hn : 0 ≤ n) (hlast : n + k = c.largest) (tries : Nat) :
    pool.firstFree c base n (k + (tries + 1)) =
      match c.overflow with
      | .stops => .error .overflow
      | .wraps => pool.firstFree c base c.smallest tries := by
  have htaken (i : Nat) : pool.isTaken (numbered base (n + i)) = true := by
    rw [isTaken, isReserved_numbered_iff.2 ⟨hbase, by omega⟩, Bool.or_true]
  rw [firstFree_skip (tries + 1) hlast.le fun i _ => htaken i, firstFree, htaken k]
  cases hover : c.overflow <;> simp [Counter.next, hlast, hover]

end NamePool

/-! ### Drawing a name -/

section

variable {c : Counter} {pool : NamePool} {asked : String}

/-- Half of the tries are for the numbers from 2 to the end of the counter. -/
lemma draw_of_reserved (hbits : 3 ≤ c.bits) (htaken : pool.isTaken asked = true)
    (hbase : bareName asked ∈ reservedBases) :
    pool.draw c asked =
      match c.overflow with
      | .stops => .error .overflow
      | .wraps => (pool.firstFree c (bareName asked) c.smallest (c.half + 2)).map
          fun name => (name, ⟨name :: pool.used⟩) := by
  obtain ⟨hsize, hfour⟩ := Counter.size_eq hbits
  have hlast : (2 : Int) + (c.half - 3 : Nat) = c.largest := by
    rw [Counter.largest]
    omega
  have htries : c.size = c.half - 3 + (c.half + 2 + 1) := by omega
  rw [draw_of_taken htaken, htries, NamePool.firstFree_of_reserved hbase (by decide) hlast]
  cases c.overflow <;> rfl

/-- A counter that goes on below zero makes every name free. -/
lemma draw_of_wraps (hover : c.overflow = .wraps) (hbits : 3 ≤ c.bits)
    (htaken : pool.isTaken asked = true) (hbase : bareName asked ∈ reservedBases)
    (hroom : pool.used.toFinset.card ≤ c.largest) :
    ∃ n : Int, n < 0 ∧ pool.draw c asked =
      .ok (NamePool.numbered (bareName asked) n,
        ⟨NamePool.numbered (bareName asked) n :: pool.used⟩) := by
  have hlargest : c.largest = c.half - 1 := rfl
  have hsmallest : c.smallest = -c.half := rfl
  obtain ⟨k, hfound, -, -, hcard⟩ := NamePool.firstFree_found pool (bareName asked)
    (n := c.smallest) (fun k hk => isReserved_numbered fun _ => by omega)
    (by omega : _ ≤ c.largest) (by omega : _ < c.half + 2)
  refine ⟨c.smallest + k, by omega, ?_⟩
  rw [draw_of_reserved hbits htaken hbase, hover]
  dsimp only
  rw [hfound]
  rfl

end

end WasmAot.Artifact
