/-
# The grammar of expressions

An expression is a sequence of instructions with a mark at its end.  A construct has sequences as its
bodies, so the grammar is recursive, and the decoder that follows it calls itself for the bodies:
`Grammar.expr` below.  The reader of expressions goes through the input byte by byte and keeps the
open constructs on a stack.  This file shows that the two are one decoder: they give the same tree
and stop at the same place, or fail with the same error.

The step is what an open construct waits for.  The reader, with some constructs open, reads a sequence
as the grammar does and then goes on as the mark at its end and the innermost construct demand
(`resume`).
-/
import WasmAot.Proofs.Binary.Locality

namespace WasmAot.Binary

open Stateful

/-! ### Decoders that do not go back -/

/-- A success leaves no more bytes than there were. -/
def Forward {α : Type} (d : Decoder α) : Prop :=
  ∀ ⦃c : Cursor⦄ ⦃a : α⦄ ⦃c' : Cursor⦄, d c = .ok a c' → c'.remaining ≤ c.remaining

namespace Forward

variable {α β : Type} {d : Decoder α} {f : α → Decoder β}

lemma of_agrees {e : Decoder α} (h : Agrees d e) : Forward d := by
  rintro ⟨offset, input⟩ a c' hrun
  obtain ⟨used, rest, rfl, rfl, -⟩ := h hrun
  simp [Cursor.remaining]

protected lemma pure (a : α) : Forward (pure a) :=
  of_agrees (.pure a)

protected lemma bind (hd : Forward d) (hf : ∀ a, Forward (f a)) : Forward (d >>= f) := by
  intro c b c' hrun
  obtain ⟨a, c₁, ha, hb⟩ := of_bind_run_ok hrun
  exact Nat.le_trans (hf a hb) (hd ha)

lemma parseFault {offset : Nat} {fault : ParseFault} :
    Forward (parseFault offset fault : Decoder α) := by
  intro c a c' hrun
  cases hrun

end Forward

lemma position_at (c : Cursor) : position c = .ok c.offset c :=
  rfl

/-- A byte is taken off the front. -/
lemma remaining_lt_of_byte {c c' : Cursor} {b : UInt8} (h : byte c = .ok b c') :
    c'.remaining < c.remaining := by
  obtain ⟨offset, input⟩ := c
  cases input with
  | nil => cases h
  | cons x input =>
    cases h
    simp [Cursor.remaining]

/-! ### Recursive descent -/

namespace Grammar

/-- What stands at the end of a sequence. -/
inductive Mark where
  /-- an `else`, at this offset -/
  | second (offset : Nat)
  /-- an `end` -/
  | last

/-- The instructions up to a mark, and the mark. -/
structure Sequence where
  instrs : List Instr
  mark : Mark

/-- A reader of sequences. -/
abbrev SequenceReader := { d : Decoder Sequence // Forward d }

/-- Instructions until a mark comes.  `item` reads an instruction, given its place and its opcode. -/
def sequenceOf (item : Nat → UInt8 → Decoder Instr)
    (hitem : ∀ offset opcode, Forward (item offset opcode)) : Decoder Sequence := fun c =>
  match hbyte : byte c with
  | .error e c' => .error e c'
  | .ok opcode c₁ =>
    if opcode = elseOpcode then .ok ⟨[], .second c.offset⟩ c₁
    else if opcode = endOpcode then .ok ⟨[], .last⟩ c₁
    else
      match hinstr : item c.offset opcode c₁ with
      | .error e c' => .error e c'
      | .ok instr c₂ =>
        have : c₂.remaining < c.remaining :=
          Nat.lt_of_le_of_lt (hitem _ _ hinstr) (remaining_lt_of_byte hbyte)
        match sequenceOf item hitem c₂ with
        | .error e c' => .error e c'
        | .ok ⟨instrs, mark⟩ c₃ => .ok ⟨instr :: instrs, mark⟩ c₃
termination_by c => c.remaining

/-- The body of a `block` or a `loop`, which has no second part. -/
def wholeBody (offset : Nat) (body : Decoder Sequence) : Decoder (List Instr) := do
  let first ← body
  match first.mark with
  | .last => return first.instrs
  | .second _ => parseFault offset .elseInBlock

/-- The bodies of an `if`: a second one follows behind an `else`, and no third one. -/
def arms (offset : Nat) (body : Decoder Sequence) : Decoder (List Instr × List Instr) := do
  let first ← body
  match first.mark with
  | .last => return (first.instrs, [])
  | .second _ =>
    let second ← body
    match second.mark with
    | .last => return (first.instrs, second.instrs)
    | .second _ => parseFault offset .duplicateElse

/-- A construct: its signature, and what `rest` makes of its bodies.  Where it would be nested too
deeply there is no reader of bodies. -/
def construct (body : Option SequenceReader) (offset : Nat)
    (rest : BlockType → Decoder Sequence → Decoder Instr) : Decoder Instr :=
  match body with
  | none => parseFault offset .nestedTooDeeply
  | some body => do
    let ty ← blockType
    rest ty body.1

/-- An instruction, given its place and its opcode. -/
def instruction (body : Option SequenceReader) (offset : Nat) (opcode : UInt8) : Decoder Instr :=
  match opcode.toNat with
  | 0x02 => construct body offset fun ty body => do
    return .block ty (← wholeBody offset body)
  | 0x03 => construct body offset fun ty body => do
    return .loop ty (← wholeBody offset body)
  | 0x04 => construct body offset fun ty body => do
    let (first, second) ← arms offset body
    return .ifElse ty first second
  | _ => plainInstr offset opcode

section

variable {body : Decoder Sequence} (h : Forward body)

include h

lemma forward_wholeBody (offset : Nat) : Forward (wholeBody offset body) := by
  refine h.bind fun first => ?_
  split
  · exact .pure _
  · exact .parseFault

lemma forward_arms (offset : Nat) : Forward (arms offset body) := by
  refine h.bind fun first => ?_
  split
  · exact .pure _
  · refine h.bind fun second => ?_
    split
    · exact .pure _
    · exact .parseFault

end

lemma forward_construct (body : Option SequenceReader) (offset : Nat)
    {rest : BlockType → Decoder Sequence → Decoder Instr}
    (hrest : ∀ ty body, Forward body → Forward (rest ty body)) :
    Forward (construct body offset rest) := by
  cases body with
  | none => exact .parseFault
  | some body => exact (Forward.of_agrees agrees_blockType).bind fun ty => hrest ty _ body.2

lemma forward_plainInstr (offset : Nat) (opcode : UInt8) : Forward (plainInstr offset opcode) :=
  .of_agrees (agrees_plainInstr offset offset opcode)

lemma forward_instruction (body : Option SequenceReader) (offset : Nat) (opcode : UInt8) :
    Forward (instruction body offset opcode) := by
  rw [instruction]
  split
  · exact forward_construct body offset fun ty body h =>
      (forward_wholeBody h offset).bind fun _ => .pure _
  · exact forward_construct body offset fun ty body h =>
      (forward_wholeBody h offset).bind fun _ => .pure _
  · exact forward_construct body offset fun ty body h =>
      (forward_arms h offset).bind fun _ => .pure _
  · exact forward_plainInstr offset opcode

/-- The recursion of `sequenceOf`. -/
lemma sequenceOf_eq (item : Nat → UInt8 → Decoder Instr)
    (hitem : ∀ offset opcode, Forward (item offset opcode)) :
    sequenceOf item hitem = (do
      let offset ← position
      let opcode ← byte
      if opcode = elseOpcode then return ⟨[], .second offset⟩
      else if opcode = endOpcode then return ⟨[], .last⟩
      else
        let instr ← item offset opcode
        let rest ← sequenceOf item hitem
        return ⟨instr :: rest.instrs, rest.mark⟩ : Decoder Sequence) := by
  funext c
  rw [sequenceOf, bind_run_ok (position_at c)]
  split
  case h_1 hbyte => rw [bind_run, hbyte]
  case h_2 opcode c₁ hbyte =>
    rw [bind_run_ok hbyte]
    split
    · rfl
    · split
      · rfl
      · split
        case h_1 hinstr => rw [bind_run, hinstr]
        case h_2 c₂ hinstr =>
          rw [bind_run_ok hinstr]
          dsimp only
          rw [bind_run]
          cases sequenceOf item hitem c₂ <;> rfl

/-- The items do not go back, so the sequence does not. -/
lemma forward_sequenceOf {item : Nat → UInt8 → Decoder Instr}
    (hitem : ∀ offset opcode, Forward (item offset opcode)) :
    Forward (sequenceOf item hitem) := by
  intro c
  -- each instruction takes its opcode, so the induction is on the bytes that are left
  induction hn : c.remaining using Nat.strong_induction_on generalizing c with
  | h n ih =>
    intro s c' hrun
    rw [sequenceOf_eq, bind_run_ok (position_at c)] at hrun
    obtain ⟨opcode, c₁, hbyte, hrun⟩ := of_bind_run_ok hrun
    have htaken := remaining_lt_of_byte hbyte
    split at hrun
    · cases hrun
      omega
    · split at hrun
      · cases hrun
        omega
      · obtain ⟨instr, c₂, hinstr, hrun⟩ := of_bind_run_ok hrun
        obtain ⟨rest, c₃, hrest, hrun⟩ := of_bind_run_ok hrun
        cases hrun
        have hkept := hitem _ _ hinstr
        have hmore := ih c₂.remaining (by omega) rfl hrest
        omega

/-- A sequence in which constructs have bodies that are read like this. -/
def within (body : Option SequenceReader) : SequenceReader :=
  ⟨sequenceOf (instruction body) (forward_instruction body), forward_sequenceOf _⟩

/-- A sequence in which constructs can be nested so many levels deep. -/
def sequence : (levels : Nat) → SequenceReader
  | 0 => within none
  | levels + 1 => within (some (sequence levels))

/-- The reader of the bodies of constructs in such a sequence. -/
def bodyReader : (levels : Nat) → Option SequenceReader
  | 0 => none
  | levels + 1 => some (sequence levels)

/-- The recursion of `sequence`. -/
lemma sequence_eq (levels : Nat) :
    (sequence levels).1 = (do
      let offset ← position
      let opcode ← byte
      if opcode = elseOpcode then return ⟨[], .second offset⟩
      else if opcode = endOpcode then return ⟨[], .last⟩
      else
        let instr ← instruction (bodyReader levels) offset opcode
        let rest ← (sequence levels).1
        return ⟨instr :: rest.instrs, rest.mark⟩) := by
  cases levels <;> exact sequenceOf_eq _ _

/-- An expression: a sequence with an `end` behind it. -/
def expr : Decoder (List Instr) := do
  let whole ← (sequence maxNesting).1
  match whole.mark with
  | .last => return whole.instrs
  | .second offset => parseFault offset .elseWithoutIf

end Grammar

/-! ### Reading without a bound -/

/-- The reader of expressions in the midst of one, with these constructs open. -/
def readOn (pending : List OpenConstruct) (done : List Instr) : Decoder (List Instr) := do
  exprFrom (← get).remaining pending done

/-- What a mark is taken for: it ends the innermost construct or its first body, or the expression.
`next` reads on. -/
def resume (next : List OpenConstruct → List Instr → Decoder (List Instr))
    (pending : List OpenConstruct) (done : List Instr) : Grammar.Mark → Decoder (List Instr)
  | .last => atEnd next pure pending done
  | .second offset => atElse next offset pending done

section

variable {next next' : List OpenConstruct → List Instr → Decoder (List Instr)}
  {pending : List OpenConstruct} {done : List Instr} {c : Cursor}

lemma resume_congr (h : ∀ pending done, next pending done c = next' pending done c)
    (mark : Grammar.Mark) :
    resume next pending done mark c = resume next' pending done mark c := by
  cases pending with
  | nil => cases mark <;> rfl
  | cons top below =>
    cases mark with
    | last => exact h _ _
    | second offset =>
      obtain ⟨construct, ty, start, outer⟩ := top
      cases construct with
      | ifThen => exact h _ _
      | block | loop | ifElse => rfl

/-- Reading on happens at places that are further on. -/
lemma exprStep_congr (h : ∀ pending done (c' : Cursor), c'.remaining < c.remaining →
      next pending done c' = next' pending done c') :
    exprStep next pure pending done c = exprStep next' pure pending done c := by
  refine bind_run_congr fun offset c₁ hposition => ?_
  cases hposition
  refine bind_run_congr fun opcode c₁ hbyte => ?_
  have htaken := remaining_lt_of_byte hbyte
  have hresume (mark : Grammar.Mark) :
      resume next pending done mark c₁ = resume next' pending done mark c₁ :=
    resume_congr (fun pending done => h pending done c₁ htaken) mark
  cases Construct.ofOpcode? opcode with
  | some construct =>
    dsimp only
    split
    · rfl
    · refine bind_run_congr fun ty c₂ hty => h _ _ c₂ ?_
      have hkept := Forward.of_agrees agrees_blockType hty
      omega
  | none =>
    dsimp only
    split
    · exact hresume (.second _)
    · split
      · exact hresume .last
      · refine bind_run_congr fun instr c₂ hinstr => h _ _ c₂ ?_
        have hkept := Grammar.forward_plainInstr _ _ hinstr
        omega

end

lemma exprFrom_nil (steps : Nat) (pending : List OpenConstruct) (done : List Instr) (offset : Nat) :
    exprFrom steps pending done ⟨offset, []⟩ = unexpectedEnd ⟨offset, []⟩ := by
  cases steps <;> rfl

/-- The bound on the number of steps is of no account if it is not less than the number of bytes. -/
lemma exprFrom_bound {steps steps' : Nat} {c : Cursor} (h : c.remaining ≤ steps)
    (h' : c.remaining ≤ steps') (pending : List OpenConstruct) (done : List Instr) :
    exprFrom steps pending done c = exprFrom steps' pending done c := by
  induction steps generalizing steps' pending done c with
  | zero =>
    obtain ⟨offset, input⟩ := c
    obtain rfl : input = [] := List.eq_nil_of_length_eq_zero (Nat.le_zero.1 h)
    rw [exprFrom_nil, exprFrom_nil]
  | succ steps ih =>
    cases steps' with
    | zero =>
      obtain ⟨offset, input⟩ := c
      obtain rfl : input = [] := List.eq_nil_of_length_eq_zero (Nat.le_zero.1 h')
      rw [exprFrom_nil, exprFrom_nil]
    | succ steps' =>
      exact exprStep_congr fun pending done c' hless =>
        ih (by omega) (by omega) pending done

/-- The recursion of `readOn`. -/
lemma readOn_eq (pending : List OpenConstruct) (done : List Instr) :
    readOn pending done = exprStep readOn pure pending done := by
  funext c
  calc readOn pending done c
      = exprFrom (c.remaining + 1) pending done c :=
        exprFrom_bound (Nat.le_refl _) (Nat.le_succ _) pending done
    _ = exprStep readOn pure pending done c :=
        exprStep_congr fun pending done c' hless =>
          exprFrom_bound (Nat.le_of_lt hless) (Nat.le_refl _) pending done

/-! ### The reader follows the grammar -/

section

variable {next : List OpenConstruct → List Instr → Decoder (List Instr)}
  {pending : List OpenConstruct} {done : List Instr} {ty : BlockType} {offset : Nat}
  {body : Decoder Grammar.Sequence} {c : Cursor}

/-- A construct of one body, at whose end it is put behind what stands around it. -/
lemma resume_wholeBody {construct : Construct} (hone : construct = .block ∨ construct = .loop) :
    (body >>= fun s =>
        resume next (⟨construct, ty, offset, done⟩ :: pending) s.instrs.reverse s.mark) =
      (Grammar.wholeBody offset body >>= fun instrs =>
        next pending (construct.close ty instrs :: done)) := by
  rw [Grammar.wholeBody, bind_assoc]
  congr 1
  funext s
  obtain ⟨instrs, mark⟩ := s
  cases mark with
  | last => simp [resume, atEnd]
  | second => rcases hone with rfl | rfl <;> rfl

/-- A conditional, whose second body is read like the first one. -/
lemma resume_arms (hbody : Forward body)
    (hsecond : ∀ first (c' : Cursor), c'.remaining ≤ c.remaining →
      next (⟨.ifElse first, ty, offset, done⟩ :: pending) [] c' =
        (body >>= fun s => resume next (⟨.ifElse first, ty, offset, done⟩ :: pending)
          s.instrs.reverse s.mark) c') :
    (body >>= fun s => resume next (⟨.ifThen, ty, offset, done⟩ :: pending)
        s.instrs.reverse s.mark) c =
      (Grammar.arms offset body >>= fun both =>
        next pending (.ifElse ty both.1 both.2 :: done)) c := by
  rw [Grammar.arms, bind_assoc]
  refine bind_run_congr fun first c₁ hfirst => ?_
  obtain ⟨instrs, mark⟩ := first
  cases mark with
  | last => simp [resume, atEnd, Construct.close]
  | second start =>
    have hread := hsecond instrs c₁ (hbody hfirst)
    simp only [resume, atElse, List.reverse_reverse]
    rw [hread, bind_assoc]
    refine bind_run_congr fun second c₂ _ => ?_
    obtain ⟨instrs', mark'⟩ := second
    cases mark' with
    | last => simp [resume, atEnd, Construct.close]
    | second => rfl

end

/-- At this place the reader, whatever constructs are open, reads a sequence as the grammar does and
goes on from the mark at its end. -/
def FollowsGrammar (c : Cursor) : Prop :=
  ∀ (levels : Nat) (pending : List OpenConstruct) (done : List Instr),
    pending.length + levels = maxNesting →
      readOn pending done c = ((Grammar.sequence levels).1 >>= fun s =>
        resume readOn pending (s.instrs.reverse ++ done) s.mark) c

lemma opcode_of_opens {opcode : UInt8} {construct : Construct}
    (h : Construct.ofOpcode? opcode = some construct) :
    ((opcode = 0x02 ∧ construct = .block) ∨ (opcode = 0x03 ∧ construct = .loop)) ∨
      (opcode = 0x04 ∧ construct = .ifThen) := by
  rw [Construct.ofOpcode?] at h
  simp only [← UInt8.toNat_inj]
  split at h
  case h_1 hopcode => cases h; exact .inl (.inl ⟨hopcode, rfl⟩)
  case h_2 hopcode => cases h; exact .inl (.inr ⟨hopcode, rfl⟩)
  case h_3 hopcode => cases h; exact .inr ⟨hopcode, rfl⟩
  case h_4 => cases h

lemma instruction_eq_wholeBody {opcode : UInt8} {construct : Construct}
    (h : (opcode = 0x02 ∧ construct = .block) ∨ (opcode = 0x03 ∧ construct = .loop))
    (body : Grammar.SequenceReader) (offset : Nat) :
    Grammar.instruction (some body) offset opcode = (do
      let ty ← blockType
      return construct.close ty (← Grammar.wholeBody offset body.1)) := by
  rcases h with ⟨rfl, rfl⟩ | ⟨rfl, rfl⟩ <;> rfl

lemma instruction_eq_arms (body : Grammar.SequenceReader) (offset : Nat) :
    Grammar.instruction (some body) offset 0x04 = (do
      let ty ← blockType
      let both ← Grammar.arms offset body.1
      return .ifElse ty both.1 both.2) :=
  rfl

lemma instruction_eq_plainInstr {opcode : UInt8} (h : Construct.ofOpcode? opcode = none)
    (body : Option Grammar.SequenceReader) (offset : Nat) :
    Grammar.instruction body offset opcode = plainInstr offset opcode := by
  rw [Grammar.instruction]
  split
  case h_4 => rfl
  all_goals
    rename_i hopcode
    rw [Construct.ofOpcode?, hopcode] at h
    cases h

/-- A construct is opened and, after its bodies were read, put behind what stands around it. -/
lemma readOn_construct {levels : Nat} {pending : List OpenConstruct} (done : List Instr)
    (hlevels : pending.length + levels = maxNesting) {construct : Construct} {opcode : UInt8}
    (hopens : Construct.ofOpcode? opcode = some construct) (offset : Nat) {c : Cursor}
    (ih : ∀ c' : Cursor, c'.remaining ≤ c.remaining → FollowsGrammar c') :
    (if maxNesting ≤ pending.length then parseFault offset .nestedTooDeeply
      else do
        let ty ← blockType
        readOn ({ construct, ty, offset, outer := done } :: pending) []) c =
      (Grammar.instruction (Grammar.bodyReader levels) offset opcode >>= fun instr =>
        readOn pending (instr :: done)) c := by
  cases levels with
  | zero =>
    -- with no level left, neither of the two reads a body
    rw [if_pos (by omega)]
    rcases opcode_of_opens hopens with (⟨rfl, -⟩ | ⟨rfl, -⟩) | ⟨rfl, -⟩ <;> rfl
  | succ levels =>
    -- the bodies are read one level further in
    have hinner (construct : Construct) (ty : BlockType) (c' : Cursor)
        (hc' : c'.remaining ≤ c.remaining) :
        readOn (⟨construct, ty, offset, done⟩ :: pending) [] c' =
          ((Grammar.sequence levels).1 >>= fun s => resume readOn
            (⟨construct, ty, offset, done⟩ :: pending) s.instrs.reverse s.mark) c' := by
      have hread := ih c' hc' levels (⟨construct, ty, offset, done⟩ :: pending) []
        (by rw [List.length_cons]; omega)
      simpa only [List.append_nil] using hread
    rw [if_neg (by omega), Grammar.bodyReader]
    rcases opcode_of_opens hopens with hone | ⟨rfl, rfl⟩
    · rw [instruction_eq_wholeBody hone, bind_assoc]
      refine bind_run_congr fun ty c₁ hty => ?_
      have hkept := Forward.of_agrees agrees_blockType hty
      rw [hinner _ ty c₁ hkept, resume_wholeBody (hone.imp And.right And.right), bind_assoc]
      simp only [pure_bind]
    · rw [instruction_eq_arms, bind_assoc]
      refine bind_run_congr fun ty c₁ hty => ?_
      have hkept := Forward.of_agrees agrees_blockType hty
      rw [hinner _ ty c₁ hkept, resume_arms (Grammar.sequence levels).2, bind_assoc]
      · simp only [pure_bind]
      · exact fun first c' hc' => hinner _ ty c' (Nat.le_trans hc' hkept)

/-- The reader follows the grammar everywhere. -/
lemma followsGrammar (c : Cursor) : FollowsGrammar c := by
  -- all that follows the opcode is read further on, where this is known already
  induction hn : c.remaining using Nat.strong_induction_on generalizing c with
  | h n ih =>
    intro levels pending done hlevels
    rw [readOn_eq, exprStep, Grammar.sequence_eq]
    simp only [bind_assoc]
    rw [bind_run_ok (position_at c), bind_run_ok (position_at c)]
    refine bind_run_congr fun opcode c₁ hbyte => ?_
    have htaken := remaining_lt_of_byte hbyte
    -- an instruction comes to stand in front of what is read after it
    have hitem : (Grammar.instruction (Grammar.bodyReader levels) c.offset opcode >>= fun instr =>
          readOn pending (instr :: done)) c₁ =
        (Grammar.instruction (Grammar.bodyReader levels) c.offset opcode >>= fun instr =>
          (Grammar.sequence levels).1 >>= fun rest =>
            resume readOn pending ((instr :: rest.instrs).reverse ++ done) rest.mark) c₁ := by
      refine bind_run_congr fun instr c₂ hinstr => ?_
      have hkept := Grammar.forward_instruction _ _ _ hinstr
      have hrest := ih c₂.remaining (by omega) c₂ rfl levels pending (instr :: done) hlevels
      simpa only [List.reverse_cons, List.append_assoc, List.singleton_append] using hrest
    cases hopens : Construct.ofOpcode? opcode with
    | some construct =>
      have hnotElse : opcode ≠ elseOpcode := by rintro rfl; cases hopens
      have hnotEnd : opcode ≠ endOpcode := by rintro rfl; cases hopens
      dsimp only
      rw [if_neg hnotElse, if_neg hnotEnd,
        readOn_construct done hlevels hopens c.offset fun c' hc' => ih _ (by omega) c' rfl, hitem]
      simp only [bind_assoc, pure_bind]
    | none =>
      dsimp only
      by_cases helse : opcode = elseOpcode
      · rw [if_pos helse, if_pos helse]
        rfl
      · rw [if_neg helse, if_neg helse]
        by_cases hend : opcode = endOpcode
        · rw [if_pos hend, if_pos hend]
          rfl
        · rw [if_neg hend, if_neg hend, ← instruction_eq_plainInstr hopens, hitem]
          simp only [bind_assoc, pure_bind]

/-- The reader of expressions is recursive descent.  At every place of every input it gives the tree
that the grammar gives and stops where the grammar stops, or it fails as the grammar fails, with the
same error and at the same place. -/
theorem expr_eq_grammar (c : Cursor) : expr c = Grammar.expr c := by
  have hread := followsGrammar c maxNesting [] [] (Nat.zero_add _)
  refine Eq.trans hread (bind_run_congr fun whole c' _ => ?_)
  obtain ⟨instrs, mark⟩ := whole
  cases mark with
  | last => simp [resume, atEnd]
  | second offset => rfl

end WasmAot.Binary
