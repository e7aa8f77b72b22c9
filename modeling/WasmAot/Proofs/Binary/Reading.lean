/-
# Reading what was written

A decoder reads some bytes as a value if it takes exactly these bytes off the front of its input,
whatever comes after them and wherever they stand.  A decoder that is put together from others reads
the bytes of its parts one after the other.  With this the readers of integers, names and vectors
are shown to read what the encoding writes.
-/
import Mathlib.Algebra.Order.Ring.Int
import Mathlib.Tactic.Ring
import WasmAot.Proofs.Binary.Encodable
import WasmAot.Proofs.Stateful

namespace WasmAot.Binary

/-- The decoder takes exactly these bytes and gives this value. -/
def Reads {α : Type} (d : Decoder α) (bytes : List UInt8) (a : α) : Prop :=
  ∀ offset rest, d ⟨offset, bytes ++ rest⟩ = .ok a ⟨offset + bytes.length, rest⟩

namespace Reads

variable {α β : Type} {d : Decoder α} {f : α → Decoder β} {xs ys : List UInt8} {a : α} {b : β}

protected lemma pure (a : α) : Reads (pure a) [] a :=
  fun _ _ => rfl

/-- A sequence of two decoders reads the bytes of the first, then those of the second. -/
protected lemma bind (hd : Reads d xs a) (hf : Reads (f a) ys b) :
    Reads (d >>= f) (xs ++ ys) b := by
  intro offset rest
  rw [List.append_assoc, Stateful.bind_run_ok (hd offset (ys ++ rest)), hf, List.length_append,
    Nat.add_assoc]

/-- What follows the first decoder takes no bytes. -/
lemma finish (hd : Reads d xs a) (hf : Reads (f a) [] b) : Reads (d >>= f) xs b :=
  List.append_nil xs ▸ hd.bind hf

protected lemma map (hd : Reads d xs a) (g : α → β) : Reads (do return g (← d)) xs (g a) :=
  hd.finish (Reads.pure (g a))

/-- A decoder that fails where there is nothing to read reads no empty sequence of bytes. -/
lemma length_pos (h : Reads d xs a) (hempty : ∃ e c, d ⟨0, []⟩ = .error e c) : 0 < xs.length := by
  obtain ⟨e, c, he⟩ := hempty
  refine List.length_pos_of_ne_nil ?_
  rintro rfl
  cases (h 0 []).symm.trans he

/-- The last decoder of a sequence may look at where it stands. -/
lemma position_bind {f : Nat → Decoder β} (hf : ∀ offset, Reads (f offset) ys b) :
    Reads (position >>= f) ys b :=
  fun offset rest => hf offset offset rest

lemma byte_bind {f : UInt8 → Decoder β} {x : UInt8} (hf : Reads (f x) ys b) :
    Reads (byte >>= f) (x :: ys) b := by
  intro offset rest
  have h := hf (offset + 1) rest
  rwa [Nat.add_assoc, Nat.add_comm 1] at h

end Reads

lemma reads_take (bytes : List UInt8) : Reads (take bytes.length) bytes bytes := by
  intro offset rest
  have hlength : bytes.length ≤ (Cursor.mk offset (bytes ++ rest)).remaining := by
    simp [Cursor.remaining]
  rw [take, Stateful.bind_run_ok (Stateful.get_run _), if_pos hlength]
  simp [Stateful.bind_run, Cursor.advance]

/-! ### Unsigned integers -/

lemma lebGroup_ofNat {n : Nat} (h : n < 256) : lebGroup (UInt8.ofNat n) = n % 128 := by
  rw [lebGroup, UInt8.toNat_ofNat_of_lt' h]

lemma lebContinues_ofNat {n : Nat} (h : n < 256) :
    lebContinues (UInt8.ofNat n) = decide (128 ≤ n) := by
  rw [lebContinues, UInt8.toNat_ofNat_of_lt' h]

/-- The groups that are still to come add the rest of the number to what is known of it. -/
lemma reads_unsignedFrom {start bits : Nat} (n : Nat) {room shift value : Nat}
    (hroom : n < 2 ^ (7 * room + 7)) (hfits : value + n * 2 ^ shift < 2 ^ bits) :
    Reads (unsignedFrom start bits (room + 1) shift value) (unsignedBytes n)
      ((value + n * 2 ^ shift) % 2 ^ wordBits) := by
  induction n using unsignedBytes.induct generalizing room shift value with
  | case1 n hn =>
    rw [unsignedBytes, if_pos hn, unsignedFrom_succ]
    refine Reads.byte_bind ?_
    rw [lebGroup_ofNat (by omega), lebContinues_ofNat (by omega), Nat.mod_eq_of_lt hn,
      if_neg (by omega), if_neg (by simpa using hn)]
    exact Reads.pure _
  | case2 n hn ih =>
    -- what this group and the groups behind it contribute
    have hsplit : n * 2 ^ shift = n % 128 * 2 ^ shift + n / 128 * 2 ^ (shift + 7) := by
      rw [Nat.pow_add, Nat.mul_comm (2 ^ shift), ← Nat.mul_assoc, ← Nat.add_mul]
      congr 1
      omega
    cases room with
    | zero => omega
    | succ room =>
      have hwidth : 2 ^ (7 * (room + 1) + 7) = 128 * 2 ^ (7 * room + 7) := by ring
      rw [unsignedBytes, if_neg hn, unsignedFrom_succ]
      refine Reads.byte_bind ?_
      rw [lebGroup_ofNat (by omega), lebContinues_ofNat (by omega), Nat.add_mod_right, Nat.mod_mod,
        if_neg (by omega), if_pos (by simp)]
      rw [hsplit, ← Nat.add_assoc] at hfits ⊢
      exact ih (by omega) hfits

lemma reads_unsigned {bits n : Nat} (hbits : bits ≤ wordBits) (hpos : 0 < bits) (h : n < 2 ^ bits) :
    Reads (unsigned bits) (unsignedBytes n) n := by
  refine Reads.position_bind fun start => ?_
  obtain ⟨room, hroom⟩ : ∃ room, lebBytes bits = room + 1 :=
    Nat.exists_eq_add_one.2 (by rw [lebBytes]; omega)
  have hpow : 2 ^ bits ≤ 2 ^ (7 * room + 7) :=
    Nat.pow_le_pow_right (by omega) (by rw [lebBytes] at hroom; omega)
  have hword : 2 ^ bits ≤ 2 ^ wordBits := Nat.pow_le_pow_right (by omega) hbits
  have hread := @reads_unsignedFrom start bits n room 0 0 (by omega) (by simpa using h)
  rw [hroom]
  rwa [Nat.pow_zero, Nat.mul_one, Nat.zero_add, Nat.mod_eq_of_lt (by omega)] at hread

lemma reads_u32 {n : Nat} (h : FitsU32 n) : Reads u32 (unsignedBytes n) n :=
  reads_unsigned (by decide) (by decide) h

/-! ### Signed integers -/

/-- A last group of seven bits, above bits that are known, read as a number with a sign. -/
lemma signedValue_last {v : Int} {shift value : Nat} (hlow : -64 ≤ v) (hhigh : v < 64)
    (hvalue : value < 2 ^ shift) :
    signedValue (shift + 7) (value + (v % 128).toNat * 2 ^ shift) = value + v * 2 ^ shift := by
  have hwidth : 2 ^ (shift + 7) = 128 * 2 ^ shift := by rw [Nat.pow_add, Nat.mul_comm]
  by_cases hsign : 0 ≤ v
  · obtain ⟨n, rfl⟩ := Int.eq_ofNat_of_zero_le hsign
    have hgroup : ((n : Int) % 128).toNat = n := by omega
    have hn : n * 2 ^ shift ≤ 63 * 2 ^ shift := Nat.mul_le_mul_right _ (by omega)
    rw [signedValue_eq, hgroup, hwidth, if_pos (by omega)]
    push_cast
    rfl
  · obtain ⟨n, hn⟩ : ∃ n : Nat, v = n - 128 := ⟨(v + 128).toNat, by omega⟩
    subst hn
    have hgroup : (((n : Int) - 128) % 128).toNat = n := by omega
    have hn : 64 * 2 ^ shift ≤ n * 2 ^ shift := Nat.mul_le_mul_right _ (by omega)
    rw [signedValue_eq, hgroup, hwidth, if_neg (by omega)]
    push_cast [Int.pow_add]
    ring

/-- The groups that are still to come add the rest of the number, with its sign, to what is known.
-/
lemma reads_signedFrom {start bits : Nat} (hbits : bits ≤ wordBits) (v : Int)
    {room shift value : Nat} (hlow : -2 ^ (7 * room + 6) ≤ v) (hhigh : v < 2 ^ (7 * room + 6))
    (hvalue : value < 2 ^ shift) (hfits : fitsSigned bits (value + v * 2 ^ shift)) :
    Reads (signedFrom start bits (room + 1) shift value) (signedBytes v)
      (value + v * 2 ^ shift) := by
  induction v using signedBytes.induct generalizing room shift value with
  | case1 v hv =>
    have hgroup : (v % 128).toNat < 128 := by omega
    rw [signedBytes, if_pos hv, signedFrom_succ]
    refine Reads.byte_bind ?_
    rw [lebGroup_ofNat (by omega), lebContinues_ofNat (by omega), Nat.mod_eq_of_lt hgroup,
      if_neg (by simpa using hgroup), signedValue_last hv.1 hv.2 hvalue, if_neg (by omega),
      if_pos hfits]
    exact Reads.pure _
  | case2 v hv ih =>
    have hgroup : (v % 128).toNat < 128 := by omega
    -- what this group and the groups behind it contribute
    have hsplit : value + v * 2 ^ shift =
        ((value + (v % 128).toNat * 2 ^ shift : Nat) : Int) + v / 128 * 2 ^ (shift + 7) := by
      have hv : v = (v % 128).toNat + v / 128 * 128 := by omega
      conv_lhs => rw [hv]
      push_cast [Int.pow_add]
      ring
    have hnext : value + (v % 128).toNat * 2 ^ shift < 2 ^ (shift + 7) := by
      have hle : (v % 128).toNat * 2 ^ shift ≤ 127 * 2 ^ shift := Nat.mul_le_mul_right _ (by omega)
      rw [Nat.pow_add]
      omega
    cases room with
    | zero => omega
    | succ room =>
      have hwidth : (2 : Int) ^ (7 * (room + 1) + 6) = 128 * 2 ^ (7 * room + 6) := by ring
      rw [signedBytes, if_neg hv, signedFrom_succ]
      refine Reads.byte_bind ?_
      rw [lebGroup_ofNat (by omega), lebContinues_ofNat (by omega), Nat.add_mod_right,
        Nat.mod_eq_of_lt hgroup, if_pos (by simp)]
      rw [hsplit] at hfits ⊢
      exact ih (by omega) (by omega) hnext hfits

lemma reads_signed {bits : Nat} {v : Int} (hbits : bits ≤ wordBits) (hpos : 0 < bits)
    (h : fitsSigned bits v) : Reads (signed bits) (signedBytes v) v := by
  refine Reads.position_bind fun start => ?_
  obtain ⟨room, hroom⟩ : ∃ room, lebBytes bits = room + 1 :=
    Nat.exists_eq_add_one.2 (by rw [lebBytes]; omega)
  have hpow : (2 : Int) ^ (bits - 1) ≤ 2 ^ (7 * room + 6) :=
    pow_le_pow_right₀ (by omega) (by rw [lebBytes] at hroom; omega)
  have hrange := fitsSigned_iff.1 h
  have hread := @reads_signedFrom start bits hbits v room 0 0 (by omega) (by omega) (by decide)
    (by simpa using h)
  rw [hroom]
  simpa using hread

lemma fitsSigned_toInt {width : Nat} (v : BitVec width) : fitsSigned width v.toInt :=
  fitsSigned_iff.2 ⟨BitVec.le_toInt v, BitVec.toInt_lt⟩

lemma reads_i32 (v : BitVec 32) : Reads i32 (signedBytes v.toInt) v := by
  have h := (reads_signed (by decide) (by decide) (fitsSigned_toInt v)).map (BitVec.ofInt 32)
  rwa [BitVec.ofInt_toInt] at h

lemma reads_i64 (v : BitVec 64) : Reads i64 (signedBytes v.toInt) v := by
  have h := (reads_signed (by decide) (by decide) (fitsSigned_toInt v)).map (BitVec.ofInt 64)
  rwa [BitVec.ofInt_toInt] at h

/-! ### Floats, names and vectors -/

lemma littleEndian_decode_encode (width n : Nat) :
    LittleEndian.decode (LittleEndian.encode width n) = n % 256 ^ width := by
  induction width generalizing n with
  | zero => rw [LittleEndian.encode, LittleEndian.decode, Nat.pow_zero, Nat.mod_one]
  | succ width ih =>
    have hbyte : n % 256 < 256 := Nat.mod_lt n (by decide)
    rw [LittleEndian.encode, LittleEndian.decode, ih, UInt8.toNat_ofNat_of_lt' hbyte,
      Nat.pow_succ', Nat.mod_mul]

/-- The bytes of a float are read as its bit pattern. -/
lemma reads_floatBits {width : Nat} (bits : BitVec (8 * width)) :
    Reads (do return BitVec.ofNat (8 * width) (← floatBits width))
      (LittleEndian.encode width bits.toNat) bits := by
  have htake := reads_take (LittleEndian.encode width bits.toNat)
  rw [LittleEndian.length_encode] at htake
  have hbits : BitVec.ofNat (8 * width)
      (LittleEndian.decode (LittleEndian.encode width bits.toNat)) = bits := by
    have hpow : 256 ^ width = 2 ^ (8 * width) := by rw [Nat.pow_mul]
    rw [littleEndian_decode_encode, hpow, Nat.mod_eq_of_lt bits.isLt, BitVec.ofNat_toNat,
      BitVec.setWidth_eq]
  have h := (htake.map LittleEndian.decode).map (BitVec.ofNat (8 * width))
  rwa [hbits] at h

lemma length_utf8 (s : String) : s.toUTF8.data.toList.length = s.utf8ByteSize := by
  rw [Array.length_toList]
  rfl

lemma fromUTF8?_toUTF8 (s : String) :
    String.fromUTF8? s.toUTF8.data.toList.toByteArray = some s := by
  have hbytes : s.toUTF8.data.toList.toByteArray = s.toUTF8 := by
    apply ByteArray.ext
    rw [List.data_toByteArray, Array.toArray_toList]
  have hvalid : s.toUTF8.IsValidUTF8 := s.isValidUTF8
  rw [hbytes, String.fromUTF8?, dif_pos hvalid]
  rfl

lemma reads_name {s : String} (h : FitsU32 s.utf8ByteSize) : Reads name (nameBytes s) s := by
  rw [nameBytes, sizedBytes, length_utf8]
  refine (reads_u32 h).bind (Reads.position_bind fun start => ?_)
  have htake := reads_take s.toUTF8.data.toList
  rw [length_utf8] at htake
  refine htake.finish ?_
  rw [fromUTF8?_toUTF8]
  exact Reads.pure s

lemma reads_repeated {α : Type} {item : Decoder α} {bytes : α → List UInt8} {items : List α}
    (h : ∀ a ∈ items, Reads item (bytes a) a) :
    Reads (repeated item items.length) (items.flatMap bytes) items := by
  induction items with
  | nil => exact Reads.pure []
  | cons a items ih =>
    have hrest := ih fun b hb => h b (List.mem_cons_of_mem a hb)
    exact (h a List.mem_cons_self).bind (hrest.map (a :: ·))

/-- Items that are never empty are not more than their bytes. -/
lemma length_le_length_flatMap {α : Type} {bytes : α → List UInt8} {items : List α}
    (hpos : ∀ a ∈ items, 0 < (bytes a).length) : items.length ≤ (items.flatMap bytes).length := by
  induction items with
  | nil => simp
  | cons a items ih =>
    have ha := hpos a List.mem_cons_self
    have hrest := ih fun b hb => hpos b (List.mem_cons_of_mem a hb)
    simp only [List.length_cons, List.flatMap_cons, List.length_append]
    omega

/-- The length of a vector is refused if it is more than what is left of the input, but items that
cannot be read from nothing take at least a byte each. -/
lemma reads_vector {α : Type} {item : Decoder α} {bytes : α → List UInt8} {items : List α}
    (hcount : FitsU32 items.length) (h : ∀ a ∈ items, Reads item (bytes a) a)
    (hempty : ∃ e c, item ⟨0, []⟩ = .error e c) :
    Reads (vector item) (vectorBytes bytes items) items := by
  refine (reads_u32 hcount).bind fun offset rest => ?_
  have hroom : ¬ (Cursor.mk offset (items.flatMap bytes ++ rest)).remaining < items.length := by
    have := length_le_length_flatMap fun a ha => (h a ha).length_pos hempty
    rw [Cursor.remaining, List.length_append]
    omega
  rw [Stateful.bind_run_ok (Stateful.get_run _), if_neg hroom]
  exact reads_repeated h offset rest

/-- A body that moves the cursor on by the declared size is accepted. -/
lemma exactlyOn_run {σ α : Type} {view : σ → Cursor} {size : Nat} {body : EStateM Error σ α}
    {s t : σ} {a : α} (h : body s = .ok a t) (hroom : size ≤ (view s).remaining)
    (hend : (view t).offset = (view s).offset + size) : exactlyOn view size body s = .ok a t := by
  have hconsumed : (view t).offset - (view s).offset = size := by omega
  rw [exactlyOn, Stateful.bind_run_ok (Stateful.get_run s), if_neg (by omega),
    Stateful.bind_run_ok h, Stateful.bind_run_ok (Stateful.get_run t), if_pos hconsumed]
  rfl

lemma reads_sizePrefixed {α : Type} {body : Decoder α} {bytes : List UInt8} {a : α}
    (hsize : FitsU32 bytes.length) (h : Reads body bytes a) :
    Reads (sizePrefixed body) (sizedBytes bytes) a :=
  (reads_u32 hsize).bind fun offset rest =>
    exactlyOn_run (h offset rest) (by simp [Cursor.remaining]) rfl

end WasmAot.Binary
