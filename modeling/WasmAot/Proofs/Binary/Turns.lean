/-
# Loops without a bound

Two loops of the decoder are limited by nothing but the input: the sections of a file are read until
it ends, and the instructions of an expression until the `end` that closes it.  As functions they have
a bound on the number of turns.  This file states the loops without one, as a relation that holds of a
result only if it is reached after some number of turns, and shows that the functions give this
result: the bound never ends a loop, because every turn takes a byte.
-/
import WasmAot.Proofs.Binary.Isolation
import WasmAot.Proofs.Binary.Grammar

namespace WasmAot.Binary

open Stateful

/-! ### Loops -/

section

variable {ε σ κ ρ : Type}

/-- The loop ends with this result.  A turn fails, gives the result of the loop, or gives what the
next turn begins with. -/
inductive LoopEnds (turn : κ → EStateM ε σ (κ ⊕ ρ)) : κ → σ → EStateM.Result ε σ ρ → Prop
  | failed {k : κ} {s t : σ} {e : ε} (h : turn k s = .error e t) : LoopEnds turn k s (.error e t)
  | gave {k : κ} {s t : σ} {r : ρ} (h : turn k s = .ok (.inr r) t) : LoopEnds turn k s (.ok r t)
  | next {k k' : κ} {s t : σ} {result : EStateM.Result ε σ ρ} (h : turn k s = .ok (.inl k') t)
      (hrest : LoopEnds turn k' t result) : LoopEnds turn k s result

variable {turn : κ → EStateM ε σ (κ ⊕ ρ)}

/-- A loop ends in one way at most. -/
lemma LoopEnds.unique {k : κ} {s : σ} {result result' : EStateM.Result ε σ ρ}
    (h : LoopEnds turn k s result) (h' : LoopEnds turn k s result') : result = result' := by
  induction h with
  | failed h =>
    cases h' with
    | failed h' => cases h.symm.trans h'; rfl
    | gave h' => cases h.symm.trans h'
    | next h' => cases h.symm.trans h'
  | gave h =>
    cases h' with
    | failed h' => cases h.symm.trans h'
    | gave h' => cases h.symm.trans h'; rfl
    | next h' => cases h.symm.trans h'
  | next h _ ih =>
    cases h' with
    | failed h' => cases h.symm.trans h'
    | gave h' => cases h.symm.trans h'
    | next h' hrest =>
      cases h.symm.trans h'
      exact ih hrest

/-- The bounded loop gives the result of the loop, if every turn that does not end it uses up some of
the bound. -/
lemma loopEnds_bounded (run : Nat → κ → EStateM ε σ ρ) (measure : σ → Nat)
    (hzero : ∀ k s, measure s = 0 → LoopEnds turn k s (run 0 k s))
    (hsucc : ∀ n k, run (n + 1) k = turn k >>= Sum.elim (run n) pure)
    (hless : ∀ k s k' t, turn k s = .ok (.inl k') t → measure t < measure s)
    {n : Nat} (k : κ) {s : σ} (hn : measure s ≤ n) : LoopEnds turn k s (run n k s) := by
  induction n generalizing k s with
  | zero => exact hzero k s (Nat.le_zero.1 hn)
  | succ n ih =>
    rw [hsucc]
    cases hturn : turn k s with
    | error e t =>
      rw [bind_run_error hturn]
      exact .failed hturn
    | ok next t =>
      rw [bind_run_ok hturn]
      cases next with
      | inr r => exact .gave hturn
      | inl k' =>
        have hmeasure := hless k s k' t hturn
        exact .next hturn (ih k' (by omega))

end

/-! ### The instructions of an expression -/

/-- What a turn of the reader of expressions begins with. -/
structure Midst where
  /-- the open constructs, innermost first -/
  pending : List OpenConstruct
  /-- the current sequence, last instruction first -/
  done : List Instr

/-- A turn of the reader of expressions: one opcode and what belongs to it. -/
def exprTurn (k : Midst) : Decoder (Midst ⊕ List Instr) :=
  exprStep (fun pending done => pure (.inl ⟨pending, done⟩)) (fun instrs => pure (.inr instrs))
    k.pending k.done

/-- Wherever a step leads on to, it is a turn first. -/
lemma exprStep_eq_turn {α : Type} (next : List OpenConstruct → List Instr → Decoder α)
    (finish : List Instr → Decoder α) (k : Midst) :
    exprStep next finish k.pending k.done =
      exprTurn k >>= Sum.elim (fun k => next k.pending k.done) finish := by
  obtain ⟨pending, done⟩ := k
  simp only [exprTurn, exprStep, bind_assoc]
  congr 1
  funext offset
  congr 1
  funext opcode
  cases Construct.ofOpcode? opcode with
  | some construct =>
    dsimp only
    split
    · rfl
    · rw [bind_assoc]
      rfl
  | none =>
    dsimp only
    split
    · cases pending with
      | nil => rfl
      | cons top below =>
        obtain ⟨construct, ty, start, outer⟩ := top
        cases construct <;> rfl
    · split
      · cases pending <;> rfl
      · rw [bind_assoc]
        rfl

/-- A turn takes the opcode. -/
lemma remaining_lt_of_exprTurn {k : Midst} {c c' : Cursor} {next : Midst ⊕ List Instr}
    (h : exprTurn k c = .ok next c') : c'.remaining < c.remaining := by
  obtain ⟨pending, done⟩ := k
  rw [exprTurn, exprStep, bind_run_ok (position_at c)] at h
  obtain ⟨opcode, c₁, hbyte, h⟩ := of_bind_run_ok h
  have htaken := remaining_lt_of_byte hbyte
  refine Nat.lt_of_le_of_lt ?_ htaken
  cases hopens : Construct.ofOpcode? opcode with
  | some construct =>
    rw [hopens] at h
    dsimp only at h
    split at h
    · cases h
    · obtain ⟨ty, c₂, hty, h⟩ := of_bind_run_ok h
      cases h
      exact Forward.of_agrees agrees_blockType hty
  | none =>
    rw [hopens] at h
    dsimp only at h
    split at h
    · cases pending with
      | nil => cases h
      | cons top below =>
        obtain ⟨construct, ty, start, outer⟩ := top
        cases construct with
        | ifThen =>
          cases h
          exact Nat.le_refl _
        | block | loop | ifElse => cases h
    · split at h
      · cases pending <;> cases h <;> exact Nat.le_refl _
      · obtain ⟨instr, c₂, hinstr, h⟩ := of_bind_run_ok h
        cases h
        exact Grammar.forward_plainInstr _ _ hinstr

/-- Reading an expression is the loop of its turns, from the beginning of an empty sequence. -/
lemma loopEnds_expr (c : Cursor) : LoopEnds exprTurn ⟨[], []⟩ c (expr c) := by
  rw [expr, bind_run_ok (get_run c)]
  refine loopEnds_bounded (fun n k => exprFrom n k.pending k.done) Cursor.remaining ?_
    (fun n => exprStep_eq_turn (exprFrom n) pure) (fun k s k' t => remaining_lt_of_exprTurn) ⟨[], []⟩
    (Nat.le_refl _)
  rintro ⟨pending, done⟩ ⟨offset, input⟩ hnone
  obtain rfl : input = [] := List.eq_nil_of_length_eq_zero hnone
  exact .failed rfl

/-! ### The sections of a file -/

/-- A turn of the reader of sections: it ends with the input, and reads a section before that. -/
def sectionTurn (_ : Unit) : Scanner (Unit ⊕ Unit) := do
  if (← get).cursor.rest.isEmpty then return .inr ()
  else
    framedSection
    return .inl ()

/-- A section takes its id. -/
lemma remaining_lt_of_framedSection {s t : ScanState} (h : framedSection s = .ok () t) :
    t.cursor.remaining < s.cursor.remaining := by
  obtain ⟨⟨offset, input⟩, d⟩ := s
  obtain ⟨raw, rest, rfl, hcursor, -⟩ := framed_of_framedSection h
  simp only [hcursor, Cursor.remaining, RawSection.bytes, List.cons_append, List.length_cons,
    List.length_append]
  omega

lemma sectionsFrom_succ_eq_turn (steps : Nat) (k : Unit) :
    sectionsFrom (steps + 1) = sectionTurn k >>= Sum.elim (fun _ => sectionsFrom steps) pure := by
  rw [sectionsFrom, sectionTurn, bind_assoc]
  congr 1
  funext s
  split
  · rfl
  · rw [bind_assoc]
    rfl

/-- Reading the sections is the loop of its turns. -/
lemma loopEnds_sections (s : ScanState) :
    LoopEnds sectionTurn () s (sectionsFrom s.cursor.remaining s) := by
  refine loopEnds_bounded (fun n _ => sectionsFrom n) (fun s => s.cursor.remaining) ?_
    sectionsFrom_succ_eq_turn ?_ () (Nat.le_refl _)
  · rintro k ⟨⟨offset, input⟩, d⟩ hnone
    obtain rfl : input = [] := List.eq_nil_of_length_eq_zero hnone
    exact .gave rfl
  · intro k s k' t hturn
    rw [sectionTurn, bind_run_ok (get_run s)] at hturn
    split at hturn
    · cases hturn
    · obtain ⟨⟨⟩, t', hsection, hturn⟩ := of_bind_run_ok hturn
      cases hturn
      exact remaining_lt_of_framedSection hsection

end WasmAot.Binary
