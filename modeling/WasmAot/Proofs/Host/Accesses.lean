/-
# Loads and stores

A word lies in memory as its bytes, the low byte first: bit `i` of the word is bit `i % 8` of byte
`i / 8` (`wordAt`).  A store puts the low bytes of its value into a range and leaves all other bytes;
a load extends the word that it finds, which it does with its sign by a shift to the upper end of 64
bits and back (`sshiftRight_shiftLeft`).  What a load gives after a store follows from these two, also
where the two ranges overlap in part.
-/
import Mathlib.Data.Nat.Bitwise
import WasmAot.Host.Arithmetic
import WasmAot.Proofs.Host.Memory

namespace WasmAot

/-! ### Bytes and bits -/

namespace LittleEndian

lemma testBit_decode (bytes : List UInt8) (i : Nat) :
    (decode bytes).testBit i = (bytes[i / 8]?.getD 0).toBitVec.getLsbD (i % 8) := by
  induction bytes generalizing i with
  | nil => simp [decode]
  | cons b rest ih =>
    have hb : b.toNat < 2 ^ 8 := b.toNat_lt
    have hvalue : decode (b :: rest) = 2 ^ 8 * decode rest + b.toNat := Nat.add_comm ..
    rw [hvalue, Nat.testBit_two_pow_mul_add _ hb]
    by_cases hi : i < 8
    · rw [if_pos hi, Nat.div_eq_of_lt hi, Nat.mod_eq_of_lt hi]
      rfl
    · have hdiv : i / 8 = (i - 8) / 8 + 1 := by omega
      have hmod : i % 8 = (i - 8) % 8 := by omega
      rw [if_neg hi, ih, hdiv, hmod, List.getElem?_cons_succ]

lemma getElem?_encode {width k : Nat} (h : k < width) (n : Nat) :
    (encode width n)[k]? = some (UInt8.ofNat (n / 256 ^ k)) := by
  induction width generalizing k n with
  | zero => cases h
  | succ width ih =>
    rw [encode]
    cases k with
    | zero =>
      rw [List.getElem?_cons_zero, Nat.pow_zero, Nat.div_one]
      exact congrArg some (UInt8.ofNat_mod_size ..)
    | succ k =>
      rw [List.getElem?_cons_succ, ih (by omega), Nat.div_div_eq_div_mul, Nat.pow_succ']

end LittleEndian

namespace Host

/-- The word from an address on. -/
def wordAt (bytes : Array UInt8) (addr bits : Nat) : BitVec bits :=
  BitVec.ofNat bits
    (Nat.ofBits fun i : Fin bits => (bytes[addr + i / 8]?.getD 0).toBitVec.getLsbD (i % 8))

/-- The bytes of a word, by their place. -/
def byteOf {w : Nat} (word : BitVec w) (k : Nat) : UInt8 :=
  ⟨word.extractLsb' (8 * k) 8⟩

/-- A word brought to another width, with its sign or with zeros. -/
def widen {w : Nat} (signed : Bool) (word : BitVec w) (width : Nat) : BitVec width :=
  if signed then word.signExtend width else word.setWidth width

section Words

variable {bytes bytes' : Array UInt8} {addr bits : Nat}

lemma getLsbD_wordAt {i : Nat} (h : i < bits) :
    (wordAt bytes addr bits).getLsbD i =
      (bytes[addr + i / 8]?.getD 0).toBitVec.getLsbD (i % 8) := by
  rw [wordAt, BitVec.getLsbD_ofNat, Nat.testBit_ofBits_lt _ _ h, decide_eq_true h, Bool.true_and]

lemma getLsbD_byteOf {w : Nat} (word : BitVec w) (k : Nat) {i : Nat} (h : i < 8) :
    (byteOf word k).toBitVec.getLsbD i = word.getLsbD (8 * k + i) := by
  rw [byteOf, BitVec.getLsbD_extractLsb', decide_eq_true h, Bool.true_and]

/-- The word depends on the bytes of its range only. -/
lemma wordAt_congr (h : ∀ k < bits / 8, bytes[addr + k]? = bytes'[addr + k]?) (hbits : 8 ∣ bits) :
    wordAt bytes addr bits = wordAt bytes' addr bits := by
  refine BitVec.eq_of_getLsbD_eq fun i hi => ?_
  rw [getLsbD_wordAt hi, getLsbD_wordAt hi, h (i / 8) (by omega)]

/-- Bytes that are those of a value make up its low bits. -/
lemma wordAt_of_bytes {w : Nat} {value : BitVec w}
    (h : ∀ k < bits / 8, bytes[addr + k]? = some (byteOf value k)) (hbits : 8 ∣ bits) :
    wordAt bytes addr bits = value.setWidth bits := by
  refine BitVec.eq_of_getLsbD_eq fun i hi => ?_
  rw [getLsbD_wordAt hi, h (i / 8) (by omega), Option.getD_some, getLsbD_byteOf _ _ (by omega),
    BitVec.getLsbD_setWidth, decide_eq_true hi, Bool.true_and, Nat.div_add_mod]

lemma ofNat_div_eq_byteOf (value : BitVec 64) (k : Nat) :
    UInt8.ofNat (value.toNat / 256 ^ k) = byteOf value k := by
  have hpow : 256 ^ k = 2 ^ (8 * k) := by rw [Nat.pow_mul]
  refine UInt8.toBitVec_inj.1 (BitVec.eq_of_getLsbD_eq fun i hi => ?_)
  rw [getLsbD_byteOf _ _ hi, hpow, UInt8.toBitVec_ofNat', BitVec.getLsbD_ofNat, decide_eq_true hi,
    Bool.true_and, Nat.testBit_div_two_pow, Nat.add_comm]
  rfl

/-- Shifting a word to the upper end and back extends it with its sign. -/
lemma sshiftRight_shiftLeft (hpos : 0 < bits) (hle : bits ≤ 64) (n : Nat) :
    (BitVec.ofNat 64 n <<< (64 - bits)).sshiftRight (64 - bits) =
      (BitVec.ofNat bits n).signExtend 64 := by
  have hlow (i : Nat) (hi : i < bits) :
      (BitVec.ofNat 64 n <<< (64 - bits)).getLsbD (64 - bits + i) =
        (BitVec.ofNat bits n).getLsbD i := by
    simp only [BitVec.getLsbD_shiftLeft, BitVec.getLsbD_ofNat, Nat.add_sub_cancel_left]
    simp [hi, show 64 - bits + i < 64 by omega, show i < 64 by omega]
  have hmsb : (BitVec.ofNat 64 n <<< (64 - bits)).msb = (BitVec.ofNat bits n).msb := by
    rw [BitVec.msb_eq_getLsbD_last, BitVec.msb_eq_getLsbD_last, ← hlow (bits - 1) (by omega)]
    congr 1
    omega
  refine BitVec.eq_of_getLsbD_eq fun i hi => ?_
  rw [BitVec.getLsbD_sshiftRight, BitVec.getLsbD_signExtend, hmsb]
  by_cases hword : i < bits
  · rw [if_pos hword, if_pos (by omega), hlow i hword]
    simp [hi]
  · rw [if_neg hword, if_neg (by omega)]
    simp [hi]

end Words

namespace Memory

/-! ### Single accesses -/

lemma dvd_of_mem_widths {bits : Nat} (h : bits ∈ widths) : 8 ∣ bits :=
  (by decide : ∀ bits ∈ widths, 8 ∣ bits) bits h

variable {m m' : Memory} {addr bits : Nat}

lemma load_of_mem (hbits : bits ∈ widths) (signed : Bool) :
    m.load addr bits signed = (do
      let found ← m.read addr (bits / 8)
      let word := BitVec.ofNat 64 (LittleEndian.decode found.toList)
      .ok (if signed then (word <<< (64 - bits)).sshiftRight (64 - bits) else word)) := by
  rw [load, accessWidth_of_mem hbits]
  rfl

/-- A load that stays inside of the memory extends the word that lies there. -/
lemma load_eq (hbits : bits ∈ widths) (h : addr + bits / 8 ≤ m.bytes.size) (signed : Bool) :
    m.load addr bits signed = .ok (widen signed (wordAt m.bytes addr bits) 64) := by
  have hdvd := dvd_of_mem_widths hbits
  have hbound : 0 < bits ∧ bits ≤ 64 :=
    (by decide : ∀ bits ∈ widths, 0 < bits ∧ bits ≤ 64) bits hbits
  -- beyond the word there are no bytes, and zeros
  have hbit (i : Nat) : (LittleEndian.decode (slice m.bytes addr (bits / 8)).toList).testBit i =
      (decide (i < bits) && (wordAt m.bytes addr bits).getLsbD i) := by
    rw [LittleEndian.testBit_decode, Array.getElem?_toList]
    by_cases hi : i < bits
    · rw [getElem?_slice h (by omega), getLsbD_wordAt hi, decide_eq_true hi, Bool.true_and]
    · have hbeyond : (slice m.bytes addr (bits / 8))[i / 8]? = none :=
        Array.getElem?_eq_none (by rw [size_slice h]; omega)
      rw [hbeyond, decide_eq_false hi, Bool.false_and]
      simp
  have hword : BitVec.ofNat bits (LittleEndian.decode (slice m.bytes addr (bits / 8)).toList) =
      wordAt m.bytes addr bits := by
    refine BitVec.eq_of_getLsbD_eq fun i hi => ?_
    rw [BitVec.getLsbD_ofNat, hbit, decide_eq_true hi, Bool.true_and, Bool.true_and]
  rw [load_of_mem hbits, read_eq, if_pos h, widen]
  refine congrArg Except.ok ?_
  split
  · rw [sshiftRight_shiftLeft hbound.1 hbound.2, hword]
  · refine BitVec.eq_of_getLsbD_eq fun i hi => ?_
    rw [BitVec.getLsbD_ofNat, hbit, BitVec.getLsbD_setWidth, decide_eq_true hi, Bool.true_and,
      Bool.true_and]
    by_cases hin : i < bits
    · rw [decide_eq_true hin, Bool.true_and]
    · rw [decide_eq_false hin, Bool.false_and, BitVec.getLsbD_of_ge _ _ (by omega)]

lemma load_trapped (hbits : bits ∈ widths) (h : m.bytes.size < addr + bits / 8) (signed : Bool) :
    m.load addr bits signed = .error .outOfBounds := by
  rw [load_of_mem hbits, read_eq, if_neg (Nat.not_le.2 h)]
  rfl

/-- The bytes that a store writes. -/
lemma size_encode (bits n : Nat) : (LittleEndian.encode (bits / 8) n).toArray.size = bits / 8 := by
  rw [List.size_toArray, LittleEndian.length_encode]

lemma store_trapped (hbits : bits ∈ widths) (h : m.bytes.size < addr + bits / 8)
    (value : BitVec 64) : store value addr bits m = .error .outOfBounds m := by
  rw [store_run hbits, write_run, size_encode, if_neg (Nat.not_le.2 h)]

/-- A memory after a store: the bytes of the value lie in the range, and no other byte has
changed. -/
structure Holds (m m' : Memory) (addr bits : Nat) (value : BitVec 64) : Prop where
  maxPages_eq : m'.maxPages = m.maxPages
  bytes : Replaces m.bytes m'.bytes addr (bits / 8) fun k => some (byteOf value k)

lemma store_holds (hbits : bits ∈ widths) (h : addr + bits / 8 ≤ m.bytes.size)
    (value : BitVec 64) :
    ∃ m', store value addr bits m = .ok () m' ∧ Holds m m' addr bits value := by
  have hrange : addr + (LittleEndian.encode (bits / 8) value.toNat).toArray.size ≤ m.bytes.size := by
    rwa [size_encode]
  refine ⟨m.spliced addr (LittleEndian.encode (bits / 8) value.toNat).toArray, ?_, rfl, ?_⟩
  · rw [store_run hbits, write_run, if_pos hrange]
  · have hreplaces := replaces_splice hrange
    rw [size_encode] at hreplaces
    refine hreplaces.congr fun k hk => ?_
    rw [List.getElem?_toArray, LittleEndian.getElem?_encode hk, ofNat_div_eq_byteOf]

/-! ### Loads after a store -/

namespace Holds

variable {value : BitVec 64}

lemma load_same (h : Holds m m' addr bits value) (hbits : bits ∈ widths)
    (hrange : addr + bits / 8 ≤ m.bytes.size) (signed : Bool) :
    m'.load addr bits signed = .ok (widen signed (value.setWidth bits) 64) := by
  rw [load_eq hbits (h.bytes.size_eq ▸ hrange),
    wordAt_of_bytes h.bytes.inside (dvd_of_mem_widths hbits)]

/-- A load that reads none of the stored bytes does not notice the store. -/
lemma load_apart (h : Holds m m' addr bits value) {addr' bits' : Nat} (hbits' : bits' ∈ widths)
    (hapart : addr' + bits' / 8 ≤ addr ∨ addr + bits / 8 ≤ addr') (signed : Bool) :
    m'.load addr' bits' signed = m.load addr' bits' signed := by
  by_cases hrange : addr' + bits' / 8 ≤ m.bytes.size
  · have hword : wordAt m'.bytes addr' bits' = wordAt m.bytes addr' bits' :=
      wordAt_congr (fun k hk => h.bytes.outside _ (by omega)) (dvd_of_mem_widths hbits')
    rw [load_eq hbits' (h.bytes.size_eq ▸ hrange), load_eq hbits' hrange, hword]
  · rw [Nat.not_le] at hrange
    rw [load_trapped hbits' (h.bytes.size_eq ▸ hrange), load_trapped hbits' hrange]

end Holds

/-- What loads find after a store. -/
structure LoadsAfter (m m' : Memory) (addr bits : Nat) (value : BitVec 64) : Prop where
  holds : Holds m m' addr bits value
  same : ∀ signed, m'.load addr bits signed = .ok (widen signed (value.setWidth bits) 64)
  /-- wherever it is and however it overlaps, a load puts together the bytes that are there now -/
  anywhere : ∀ addr' bits' signed, bits' ∈ widths →
    m'.load addr' bits' signed =
      if addr' + bits' / 8 ≤ m.bytes.size then .ok (widen signed (wordAt m'.bytes addr' bits') 64)
      else .error .outOfBounds
  apart : ∀ addr' bits' signed, bits' ∈ widths →
    addr' + bits' / 8 ≤ addr ∨ addr + bits / 8 ≤ addr' →
    m'.load addr' bits' signed = m.load addr' bits' signed

/-- A store at a base and a static offset traps exactly if its range leaves the memory, where the sum
of the two is not cut off at 32 bits; then the memory stays.  Otherwise loads find the bytes that it
has left. -/
structure Composes (m : Memory) (base offset : BitVec 32) (bits : Nat) (value : BitVec 64) :
    Prop where
  traps_iff : store value (accessAddress base offset) bits m = .error .outOfBounds m ↔
    m.bytes.size < base.toNat + offset.toNat + bits / 8
  stored : base.toNat + offset.toNat + bits / 8 ≤ m.bytes.size →
    ∃ m', store value (accessAddress base offset) bits m = .ok () m' ∧
      LoadsAfter m m' (base.toNat + offset.toNat) bits value

lemma Holds.loadsAfter {value : BitVec 64} (h : Holds m m' addr bits value)
    (hbits : bits ∈ widths) (hrange : addr + bits / 8 ≤ m.bytes.size) :
    LoadsAfter m m' addr bits value where
  holds := h
  same := h.load_same hbits hrange
  anywhere addr' bits' signed hbits' := by
    split
    · next hin => exact load_eq hbits' (h.bytes.size_eq ▸ hin) signed
    · next hout => exact load_trapped hbits' (h.bytes.size_eq ▸ Nat.not_le.1 hout) signed
  apart addr' bits' signed hbits' hapart := h.load_apart hbits' hapart signed

lemma composes (m : Memory) (base offset : BitVec 32) (hbits : bits ∈ widths)
    (value : BitVec 64) : Composes m base offset bits value := by
  have haddr : accessAddress base offset = base.toNat + offset.toNat := rfl
  refine ⟨⟨fun htrap => Nat.lt_of_not_le fun hin => ?_, fun hout => ?_⟩, fun hin => ?_⟩
  · obtain ⟨m', hstore, -⟩ := store_holds hbits hin value
    rw [haddr, hstore] at htrap
    cases htrap
  · rw [haddr]
    exact store_trapped hbits hout value
  · obtain ⟨m', hstore, hholds⟩ := store_holds hbits hin value
    exact ⟨m', by rw [haddr, hstore], hholds.loadsAfter hbits hin⟩

end Memory

end Host

end WasmAot
