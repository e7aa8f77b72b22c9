/-
# Expressions say where they end

Where an expression ends can be told from its own bytes.  What follows them makes no difference, and
if the input stops before them the reader runs out of bytes and says so: it does not take what is
there for a shorter expression, nor for a malformed one.

The argument compares a run with the run on an input that goes on (`Prolongs`).  Either the shorter
input was not enough, or both runs give the same value or fail with the same error.  Two readers
look at how much input is left, and it is here that this matters: the length of a vector is refused
as an unexpected end, and the bound on the number of steps of an expression is of no account.
-/
import WasmAot.Proofs.Binary.Grammar

namespace WasmAot.Binary

open Stateful

/-! ### Inputs that go on -/

namespace Cursor

/-- The offset of the end of the input. -/
def limit (c : Cursor) : Nat :=
  c.offset + c.remaining

/-- The same place in an input that goes on. -/
def prolonged (c : Cursor) (more : List UInt8) : Cursor :=
  ⟨c.offset, c.rest ++ more⟩

lemma remaining_prolonged (c : Cursor) (more : List UInt8) :
    (c.prolonged more).remaining = c.remaining + more.length :=
  List.length_append

lemma limit_advance {c : Cursor} {n : Nat} (h : n ≤ c.remaining) :
    (c.advance n).limit = c.limit := by
  rw [remaining] at h
  simp only [limit, advance, remaining, List.length_drop]
  omega

lemma advance_prolonged {c : Cursor} {n : Nat} (h : n ≤ c.remaining) (more : List UInt8) :
    (c.prolonged more).advance n = (c.advance n).prolonged more := by
  simp only [prolonged, advance, List.drop_append_of_le_length h]

end Cursor

/-- The run on an input that ends at `limit`, and the run on the input with more bytes behind it. -/
inductive Prolongs {α : Type} (limit : Nat) (more : List UInt8) :
    EStateM.Result Error Cursor α → EStateM.Result Error Cursor α → Prop
  /-- the shorter input was not enough -/
  | ranOut {place : Nat} {c : Cursor} {longer : EStateM.Result Error Cursor α}
      (h : place ≤ limit) : Prolongs limit more (.error (.lexing place .unexpectedEnd) c) longer
  | gave {a : α} {c : Cursor} (h : c.limit = limit) :
      Prolongs limit more (.ok a c) (.ok a (c.prolonged more))
  | failed {e : Error} {c c' : Cursor} : Prolongs limit more (.error e c) (.error e c')

/-- At this place the decoder runs out of bytes, or more bytes behind the input change nothing. -/
def SteadyAt {α : Type} (d : Decoder α) (c : Cursor) : Prop :=
  ∀ more, Prolongs c.limit more (d c) (d (c.prolonged more))

/-- The decoder runs out of bytes, or more bytes behind the input change nothing. -/
def Steady {α : Type} (d : Decoder α) : Prop :=
  ∀ c, SteadyAt d c

section

variable {α β : Type} {d : Decoder α} {f : α → Decoder β}

/-- What follows a decoder begins where the decoder has stopped, in the same input. -/
lemma SteadyAt.bind {c : Cursor} (hd : SteadyAt d c)
    (hf : ∀ a c', d c = .ok a c' → SteadyAt (f a) c') : SteadyAt (d >>= f) c := by
  intro more
  have hfirst := hd more
  rw [bind_run, bind_run]
  generalize hshort : d c = short, d (c.prolonged more) = long at hfirst
  cases hfirst with
  | ranOut hplace => exact .ranOut hplace
  | failed => exact .failed
  | @gave a c' hlimit =>
    have hsecond := hf a c' hshort more
    rwa [hlimit] at hsecond

namespace Steady

protected lemma pure (a : α) : Steady (pure a) :=
  fun _ _ => .gave rfl

protected lemma bind (hd : Steady d) (hf : ∀ a, Steady (f a)) : Steady (d >>= f) :=
  fun c => (hd c).bind fun a c' _ => hf a c'

protected lemma map (hd : Steady d) (g : α → β) : Steady (do return g (← d)) :=
  hd.bind fun a => .pure (g a)

protected lemma throw (e : Error) : Steady (throw e : Decoder α) :=
  fun _ _ => .failed

lemma position : Steady position :=
  fun _ _ => .gave rfl

end Steady

end

/-! ### Bytes and integers -/

lemma steady_byte : Steady byte := by
  rintro ⟨offset, input⟩ more
  cases input with
  | nil => exact .ranOut (Nat.le_refl _)
  | cons b input =>
    refine Prolongs.gave (c := ⟨offset + 1, input⟩) ?_
    simp only [Cursor.limit, Cursor.remaining, List.length_cons]
    omega

lemma steady_peek : Steady peek := by
  rintro ⟨offset, input⟩ more
  cases input with
  | nil => exact .ranOut (Nat.le_refl _)
  | cons b input => exact Prolongs.gave (c := ⟨offset, b :: input⟩) rfl

lemma steady_take (n : Nat) : Steady (take n) := by
  intro c more
  rw [take, bind_run_ok (get_run _), bind_run_ok (get_run _)]
  by_cases hroom : n ≤ c.remaining
  · have hmore : n ≤ (c.prolonged more).remaining := by
      rw [Cursor.remaining_prolonged]
      omega
    have htake : (c.prolonged more).rest.take n = c.rest.take n :=
      List.take_append_of_le_length hroom
    rw [if_pos hroom, if_pos hmore, htake, Cursor.advance_prolonged hroom]
    exact .gave (Cursor.limit_advance hroom)
  · rw [if_neg hroom]
    exact .ranOut (Nat.le_add_right _ _)

lemma steady_unsignedFrom (start bits room shift value : Nat) :
    Steady (unsignedFrom start bits room shift value) := by
  induction room generalizing shift value with
  | zero => exact .throw _
  | succ room ih =>
    refine steady_byte.bind fun b => ?_
    dsimp only
    split
    · exact .throw _
    · split
      · exact ih _ _
      · exact .pure _

lemma steady_signedFrom (start bits room shift value : Nat) :
    Steady (signedFrom start bits room shift value) := by
  induction room generalizing shift value with
  | zero => exact .throw _
  | succ room ih =>
    refine steady_byte.bind fun b => ?_
    dsimp only
    split
    · exact ih _ _
    · split
      · exact .pure _
      · split
        · exact .pure _
        · exact .throw _

lemma steady_u32 : Steady u32 :=
  Steady.position.bind fun start => steady_unsignedFrom start _ _ _ _

lemma steady_signed (bits : Nat) : Steady (signed bits) :=
  Steady.position.bind fun start => steady_signedFrom start _ _ _ _

lemma steady_repeated {α : Type} {item : Decoder α} (h : Steady item) (n : Nat) :
    Steady (repeated item n) := by
  induction n with
  | zero => exact .pure _
  | succ n ih => exact h.bind fun _ => ih.map _

/-- A length that is too large for what is left is an unexpected end.  On a longer input it might be
accepted, but what is accepted on the shorter one is accepted there too. -/
lemma steady_vector {α : Type} {item : Decoder α} (h : Steady item) : Steady (vector item) := by
  refine steady_u32.bind fun length c more => ?_
  rw [bind_run_ok (get_run _), bind_run_ok (get_run _)]
  by_cases hroom : c.remaining < length
  · rw [if_pos hroom]
    exact .ranOut (Nat.le_add_right _ _)
  · have hmore : ¬ (c.prolonged more).remaining < length := by
      rw [Cursor.remaining_prolonged]
      omega
    rw [if_neg hroom, if_neg hmore]
    exact steady_repeated h length c more

/-! ### Instructions that are no constructs -/

lemma steady_valType : Steady valType := by
  refine Steady.position.bind fun offset => steady_byte.bind fun b => ?_
  split
  · exact .pure _
  · exact .throw _

lemma steady_refType : Steady refType := by
  refine Steady.position.bind fun offset => steady_valType.bind fun ty => ?_
  split
  · exact .pure _
  · exact .throw _

lemma steady_memArg : Steady memArg :=
  steady_u32.bind fun _ => steady_u32.map _

lemma steady_zeroMemory : Steady zeroMemory := by
  refine Steady.position.bind fun offset => steady_byte.bind fun b => ?_
  split
  · exact .pure _
  · exact .throw _

lemma steady_blockType : Steady blockType := by
  refine Steady.position.bind fun offset => steady_peek.bind fun b => ?_
  split
  · exact steady_byte.map _
  · split
    · exact steady_byte.map _
    · refine (steady_signed 33).bind fun index => ?_
      split
      · exact .pure _
      · exact .throw _

lemma steady_extended (offset : Nat) : Steady (extended offset) := by
  refine steady_u32.bind fun sub => ?_
  split
  case h_1 => exact steady_u32.bind fun _ => steady_zeroMemory.map _
  case h_3 => exact steady_zeroMemory.bind fun _ => steady_zeroMemory.map _
  case h_4 => exact steady_zeroMemory.map _
  case h_5 | h_7 => exact steady_u32.bind fun _ => steady_u32.map _
  case h_2 | h_6 | h_8 | h_9 | h_10 => exact steady_u32.map _
  case h_11 =>
    split
    · exact .pure _
    · exact .throw _

lemma steady_tabled (offset : Nat) (opcode : UInt8) : Steady (tabled offset opcode) := by
  rw [tabled]
  split
  · exact steady_memArg.map _
  · split
    · exact steady_memArg.map _
    · split
      · exact .pure _
      · exact .throw _

lemma steady_plainInstr (offset : Nat) (opcode : UInt8) : Steady (plainInstr offset opcode) := by
  rw [plainInstr]
  split
  case h_1 | h_2 | h_6 | h_9 | h_10 | h_26 => exact .pure _
  case h_3 | h_4 | h_7 | h_12 | h_13 | h_14 | h_15 | h_16 | h_17 | h_18 | h_27 =>
    exact steady_u32.map _
  case h_5 => exact (steady_vector steady_u32).bind fun _ => steady_u32.map _
  case h_8 => exact steady_u32.bind fun _ => steady_u32.map _
  case h_11 =>
    refine (steady_vector steady_valType).bind fun types => ?_
    split
    · exact .pure _
    · exact .throw _
  case h_19 | h_20 => exact steady_zeroMemory.map _
  case h_21 => exact ((steady_signed 32).map _).map _
  case h_22 => exact ((steady_signed 64).map _).map _
  case h_23 => exact ((steady_take 4).map _).map _
  case h_24 => exact ((steady_take 8).map _).map _
  case h_25 => exact steady_refType.map _
  case h_28 => exact steady_extended offset
  case h_29 => exact steady_tabled offset opcode

/-! ### Expressions -/

lemma steadyAt_resume {next : List OpenConstruct → List Instr → Decoder (List Instr)} {c : Cursor}
    (h : ∀ pending done, SteadyAt (next pending done) c) (pending : List OpenConstruct)
    (done : List Instr) (mark : Grammar.Mark) : SteadyAt (resume next pending done mark) c := by
  cases pending with
  | nil =>
    cases mark with
    | last => exact Steady.pure _ c
    | second offset => exact Steady.throw _ c
  | cons top below =>
    cases mark with
    | last => exact h _ _
    | second offset =>
      obtain ⟨construct, ty, start, outer⟩ := top
      cases construct with
      | ifThen => exact h _ _
      | block | loop | ifElse => exact Steady.throw _ c

/-- A step of the reader is steady if the reader is at all places further on. -/
lemma steadyAt_exprStep {next : List OpenConstruct → List Instr → Decoder (List Instr)} {c : Cursor}
    (h : ∀ pending done (c' : Cursor), c'.remaining < c.remaining → SteadyAt (next pending done) c')
    (pending : List OpenConstruct) (done : List Instr) :
    SteadyAt (exprStep next pure pending done) c := by
  refine (Steady.position c).bind fun offset c₁ hposition => ?_
  cases hposition
  refine (steady_byte c).bind fun opcode c₁ hbyte => ?_
  have htaken := remaining_lt_of_byte hbyte
  have hresume (mark : Grammar.Mark) : SteadyAt (resume next pending done mark) c₁ :=
    steadyAt_resume (fun pending done => h pending done c₁ htaken) pending done mark
  cases Construct.ofOpcode? opcode with
  | some construct =>
    dsimp only
    split
    · exact Steady.throw _ c₁
    · refine (steady_blockType c₁).bind fun ty c₂ hty => h _ _ c₂ ?_
      have hkept := Forward.of_agrees agrees_blockType hty
      omega
  | none =>
    dsimp only
    split
    · exact hresume (.second _)
    · split
      · exact hresume .last
      · refine (steady_plainInstr _ opcode c₁).bind fun instr c₂ hinstr => h _ _ c₂ ?_
        have hkept := Grammar.forward_plainInstr _ _ hinstr
        omega

/-- By induction on what is left of the input: every step takes at least a byte. -/
lemma steady_readOn (pending : List OpenConstruct) (done : List Instr) :
    Steady (readOn pending done) := by
  intro c
  induction hn : c.remaining using Nat.strong_induction_on generalizing c pending done with
  | h n ih =>
    rw [readOn_eq]
    exact steadyAt_exprStep (fun pending done c' hless => ih _ (by omega) pending done c' rfl) _ _

lemma steady_expr : Steady expr :=
  steady_readOn [] []

lemma steady_constExpr : Steady constExpr := by
  refine Steady.position.bind fun offset => steady_expr.bind fun body => ?_
  split
  · exact .pure _
  · exact .throw _

/-! ### Self-delimiting decoders -/

/-- The decoder fails because there are too few bytes. -/
def RunsOut {α : Type} (d : Decoder α) (bytes : List UInt8) : Prop :=
  ∃ place c, d (.start bytes) = .error (.lexing place .unexpectedEnd) c ∧ place ≤ bytes.length

/-- The bytes that the decoder takes determine what it does, and none of them can be missing. -/
structure SelfDelimiting {α : Type} (d : Decoder α) : Prop where
  /-- no more bytes are taken than there are -/
  within : ∀ {bytes a c}, d (.start bytes) = .ok a c → c.offset ≤ bytes.length
  /-- the bytes behind those that are taken have no influence -/
  determined : ∀ {bytes a c}, d (.start bytes) = .ok a c →
    ∀ other, other.take c.offset = bytes.take c.offset →
      d (.start other) = .ok a ((Cursor.start other).advance c.offset)
  /-- fewer bytes are not enough -/
  minimal : ∀ {bytes a c}, d (.start bytes) = .ok a c → ∀ m < c.offset, RunsOut d (bytes.take m)

section

variable {α : Type} {d : Decoder α}

lemma start_prolonged (bytes more : List UInt8) :
    (Cursor.start bytes).prolonged more = .start (bytes ++ more) :=
  rfl

/-- A run that a longer input does not change has taken all it needs from the shorter one. -/
lemma runsOut_of_steady (h : Steady d) {known more : List UInt8} {a : α} {c : Cursor}
    (hrun : d (.start (known ++ more)) = .ok a c) (hshort : c.remaining < more.length) :
    RunsOut d known := by
  have hboth := h (.start known) more
  rw [start_prolonged, hrun] at hboth
  generalize hknown : d (.start known) = short at hboth
  cases hboth with
  | @ranOut place c' _ hplace =>
    refine ⟨place, c', hknown, ?_⟩
    simpa [Cursor.limit, Cursor.start, Cursor.remaining] using hplace
  | @gave _ c' _ =>
    rw [Cursor.remaining_prolonged] at hshort
    omega

/-- A run from the start takes the bytes at the front and leaves the others. -/
lemma Agrees.of_start (h : Agrees d d) {bytes : List UInt8} {a : α} {c : Cursor}
    (hrun : d (.start bytes) = .ok a c) :
    ∃ used rest, bytes = used ++ rest ∧ c = ⟨used.length, rest⟩ ∧ Reads d used a := by
  obtain ⟨used, rest, hbytes, hcursor, hreads⟩ := h hrun
  exact ⟨used, rest, hbytes, by rw [hcursor, Nat.zero_add], hreads⟩

lemma selfDelimiting_of_steady (hagrees : Agrees d d) (hsteady : Steady d) : SelfDelimiting d where
  within {bytes a c} hrun := by
    obtain ⟨used, rest, rfl, rfl, -⟩ := hagrees.of_start hrun
    rw [List.length_append]
    exact Nat.le_add_right _ _
  determined {bytes a c} hrun other hother := by
    obtain ⟨used, rest, rfl, rfl, hreads⟩ := hagrees.of_start hrun
    dsimp only at hother ⊢
    rw [List.take_left] at hother
    obtain ⟨more, rfl⟩ := List.prefix_iff_eq_take.2 hother.symm
    have hcursor : (Cursor.start (used ++ more)).advance used.length = ⟨0 + used.length, more⟩ := by
      simp [Cursor.advance, Cursor.start]
    rw [hcursor]
    exact hreads 0 more
  minimal {bytes a c} hrun m hm := by
    obtain ⟨used, rest, rfl, rfl, -⟩ := hagrees.of_start hrun
    dsimp only at hm
    -- what is cut off are bytes that were taken
    rw [← List.take_append_drop m (used ++ rest)] at hrun
    refine runsOut_of_steady hsteady hrun ?_
    simp only [Cursor.remaining, List.length_drop, List.length_append]
    omega

end

/-- Expressions are self-delimiting, and so are constant expressions.  An expression that is read
from some bytes is read in the same way from any bytes that begin with those it takes, and any
smaller part of these is an unexpected end of the input, reported at a place inside of the part. -/
theorem expr_selfDelimiting : SelfDelimiting expr ∧ SelfDelimiting constExpr :=
  ⟨selfDelimiting_of_steady agrees_expr steady_expr,
    selfDelimiting_of_steady agrees_constExpr steady_constExpr⟩

/-- A block with a branch table inside, and a byte behind it. -/
def nestedTable : List UInt8 :=
  [0x02, 0x40, 0x0e, 0x02, 0x00, 0x81, 0x00, 0x00, 0x0b, 0x0b, 0xff]

/-- The block ends with its last byte.  A length of two that only one byte is left for, and an
integer that stops in the middle, are unexpected ends. -/
theorem expr_selfDelimiting_nestedTable :
    expr (.start nestedTable) = .ok [.block .empty [.brTable [0, 1] 0]] ⟨10, [0xff]⟩ ∧
      (∀ rest, expr (.start (nestedTable.take 10 ++ rest)) =
        .ok [.block .empty [.brTable [0, 1] 0]] ⟨10, rest⟩) ∧
      RunsOut expr [0x02, 0x40, 0x0e, 0x02, 0x00] ∧
      RunsOut expr [0x02, 0x40, 0x0e, 0x02, 0x00, 0x81] ∧
      RunsOut constExpr [0x41] := by
  have hrun : expr (.start nestedTable) =
      .ok [.block .empty [.brTable [0, 1] 0]] ⟨10, [0xff]⟩ := rfl
  have hconst : constExpr (.start [0x41, 0x07, 0x0b]) = .ok (.i32 7) ⟨3, []⟩ := rfl
  exact ⟨hrun, fun rest => expr_selfDelimiting.1.determined hrun _ rfl,
    expr_selfDelimiting.1.minimal hrun 5 (by decide),
    expr_selfDelimiting.1.minimal hrun 6 (by decide),
    expr_selfDelimiting.2.minimal hconst 1 (by decide)⟩

end WasmAot.Binary
