/-
# Deferred reads of locals

A read of a local is not written where it stands.  It waits on the stack of operands until it is
used, and if the local is assigned before that, the read has to be bound to a variable first.  This
file follows the lowering of a body from state to state and shows that no read waits too long.

* Whether an operand reads a local is told by what is written where it is used (`Operand.Mentions`).
  The lowering goes by a note that operands carry instead, and the two agree (`Operand.Genuine`).
* Only operands of the innermost frame read locals (`Builder.Tidy`).  Before a construct is opened
  all reads are bound, so the frame in which it is opened has none; when the construct is left,
  this frame is the innermost one again.
* For the second arm of a conditional this takes more: its frame is opened later, in the frame that
  the first arm was opened in, with parameters that were taken off then.  What the loop still has to
  do tells how many frames there are around the current place (`Pending`).
* A write to a local replaces each operand that reads the local by a variable, whose binding stands
  right before the assignment (`Overwrites`).

All of this holds whether the body is valid or not.
-/
import Mathlib.Data.List.Forall2
import WasmAot.Proofs.Lowering.States

namespace WasmAot.Lowering

open Code Stateful

/-! ### Operands that read locals -/

/-- The value of the operand does not depend on any local. -/
structure Operand.Fixed (op : Operand) : Prop where
  reads : op.reads = none
  not_mentions : ∀ index, ¬ op.Mentions index

lemma Operand.Genuine.fixed {op : Operand} (h : op.Genuine) (hreads : op.reads = none) :
    op.Fixed := by
  refine ⟨hreads, fun index hmentions => ?_⟩
  rw [h.of_mentions index hmentions] at hreads
  cases hreads

lemma Operand.Fixed.genuine {op : Operand} (h : op.Fixed) : op.Genuine := by
  refine ⟨fun index hreads => ?_, fun index hmentions => (h.not_mentions index hmentions).elim⟩
  rw [h.reads] at hreads
  cases hreads

/-- No operand of the frames depends on a local. -/
def AllFixed (frames : List Frame) : Prop :=
  ∀ frame ∈ frames, ∀ op ∈ frame.stack, op.Fixed

lemma AllFixed.settled {frames : List Frame} (h : AllFixed frames) : Settled frames :=
  fun frame hframe op hop => (h frame hframe op hop).reads

/-- Only operands of the innermost frame depend on locals, and it is known on which. -/
structure Builder.Tidy (b : Builder) : Prop where
  outer : AllFixed b.enclosing
  inner : ∀ op ∈ b.current.stack, op.Genuine

lemma AllFixed.tidy {b : Builder} (h : AllFixed b.frames) : b.Tidy where
  outer frame hframe := h frame (List.mem_cons_of_mem _ hframe)
  inner op hop := (h b.current List.mem_cons_self op hop).genuine

lemma genuine_settledStack {which : Nat → Bool} {n : Nat} {ops : List Operand}
    (h : ∀ op ∈ ops, op.Genuine) : ∀ op ∈ settledStack which n ops, op.Genuine := by
  induction ops with
  | nil => exact h
  | cons op below ih =>
    obtain ⟨hop, hbelow⟩ := List.forall_mem_cons.1 h
    rw [settledStack]
    split
    · exact List.forall_mem_cons.2 ⟨.temp _ _, ih hbelow⟩
    · exact List.forall_mem_cons.2 ⟨hop, ih hbelow⟩

section

variable {b b' : Builder} {c : List (FrameKind × Label × Target × Target)}

lemma Builder.Tidy.popped (h : b.Tidy) (n : Nat) : (b.popped n).Tidy where
  outer := forall_dropOperands h.outer _
  inner op hop := h.inner op (List.mem_of_mem_drop hop)

lemma Builder.chain_popped (b : Builder) (n : Nat) : (b.popped n).chain = b.chain :=
  congrArg List.reverse (map_shape_dropOperands n b.frames)

/-- The builder is tidy and in these frames. -/
def Builder.TidyIn (c : List (FrameKind × Label × Target × Target)) (b : Builder) : Prop :=
  b.Tidy ∧ b.chain = c

/-- Operations in the innermost frame push no reads elsewhere. -/
lemma Composed.preserves {α : Type} {x : Build α} (h : Composed x) :
    Preserves (Builder.TidyIn c) x := by
  induction h with
  | pure a => exact .of_keeps (.pure a)
  | throw => exact .of_keeps (.throw _)
  | get => exact .of_keeps .get
  | fresh _ hf =>
    -- the number of the next variable is no part of what is kept
    have hnew {b : Builder} (hb : b.TidyIn c) : (b.wrote 1 []).TidyIn c :=
      ⟨⟨hb.1.outer, hb.1.inner⟩, hb.2⟩
    refine ⟨fun b a b' hb hrun => ?_, fun b e b' hb hrun => ?_⟩
    · rw [bind_run_ok newVar_run] at hrun
      exact (hf _).of_ok (hnew hb) hrun
    · rw [bind_run_ok newVar_run] at hrun
      exact (hf _).of_error (hnew hb) hrun
  | newLabel =>
    exact .of_run _ _ (fun _ => newLabel_run) fun b hb => ⟨⟨hb.1.outer, hb.1.inner⟩, hb.2⟩
  | emit line =>
    exact .of_run _ _ (fun _ => emit_run line) fun b hb => ⟨⟨hb.1.outer, hb.1.inner⟩, hb.2⟩
  | markUnreachable =>
    exact .of_run _ Builder.unreached (fun _ => rfl) fun b hb => ⟨⟨hb.1.outer, hb.1.inner⟩, hb.2⟩
  | pushOperand hop =>
    refine .of_run _ _ (fun _ => pushOperand_run _) fun b hb => ⟨⟨hb.1.outer, ?_⟩, hb.2⟩
    exact List.forall_mem_cons.2 ⟨hop, hb.1.inner⟩
  | takeOff n =>
    refine .of_run _ (fun b => b.popped n) (fun _ => rfl) fun b hb => ⟨hb.1.popped n, ?_⟩
    rw [b.chain_popped, hb.2]
  | settle which =>
    refine ⟨fun b _ b' hb hrun => ?_, fun b e b' _ hrun => (settle_never_fails which hrun).elim⟩
    cases (settle_run which hb.1.outer.settled).symm.trans hrun
    exact ⟨⟨hb.1.outer, genuine_settledStack hb.1.inner⟩, hb.2⟩
  | bind _ _ hx hf => exact hx.bind hf

lemma Entering.stops {α : Type} {x : Build α} (h : Entering x) : Stops (Builder.TidyIn c) x := by
  induction h with
  | enter => exact fun _ _ _ _ hrun => nomatch hrun
  | refuse h => exact (Preserves.of_keeps (.throw _)).of_error
  | after hx _ hf => exact hx.preserves.before hf

/-- A construct that is refused is not entered. -/
lemma Opening.stops {α : Type} {x : Build α} (h : Opening x) : Stops (Builder.TidyIn c) x := by
  obtain ⟨f, rfl, hentering⟩ := h
  refine Preserves.before (.of_keeps ?_) fun _ => hentering.stops
  refine Keeps.get.bind fun b => ?_
  split
  · exact .throw _
  · exact .pure _

/-! ### Opening and leaving a construct -/

/-- Inside of a new frame only the parameters of the construct are on top. -/
lemma Builder.tidy_inside {frame : Frame} (h : AllFixed b.frames)
    (hstack : ∀ op ∈ frame.stack, op.Fixed) : (b.inside frame).Tidy where
  outer := h
  inner op hop := (hstack op hop).genuine

/-- Before a construct is opened the reads of locals are bound, those of its parameters too. -/
lemma Builder.Tidy.prepare (h : b.Tidy) {types : List ValType} {params : List Operand}
    {b₁ b₂ : Builder} (hsettle : settleLocals b = .ok () b₁)
    (hpop : popOperandsOf types b₁ = .ok params b₂) :
    AllFixed b₂.frames ∧ ∀ op ∈ params, op.Fixed := by
  have hfixed : AllFixed b₁.frames := by
    cases (settleLocals_run h.outer.settled).symm.trans hsettle
    refine List.forall_mem_cons.2 ⟨fun op hop => ?_, h.outer⟩
    exact (genuine_settledStack h.inner op hop).fixed (reads_settledStack_all op hop)
  obtain ⟨rfl, hparams⟩ := eq_popped_of_popOperandsOf hpop
  refine ⟨forall_dropOperands hfixed _, fun op hop => ?_⟩
  obtain ⟨frame, hframe, hmem⟩ := List.mem_flatMap.1 (hparams op hop)
  exact hfixed frame hframe op hmem

lemma fixed_freshOperands {n : Nat} {types : List ValType} :
    ∀ op ∈ freshOperands n types, op.Fixed := by
  induction types generalizing n with
  | nil => exact List.forall_mem_nil _
  | cons ty types ih => exact List.forall_mem_cons.2 ⟨(Operand.Genuine.temp n ty).fixed rfl, ih⟩

/-- The variables of the target are none of the locals. -/
def Target.Fresh (target : Target) : Prop :=
  ∀ x ∈ target.vars, ∃ n, x = .temp n

lemma fresh_temps (n : Nat) (types : List ValType) :
    Target.Fresh ⟨temps n types.length, types⟩ := by
  intro x hx
  obtain ⟨k, -, -, rfl⟩ := mem_temps.1 hx
  exact ⟨k, rfl⟩

variable {m : Module} {ty : BlockType}

lemma Builder.Tidy.openBlock (h : b.Tidy) {results : Target}
    (hrun : openBlock m ty b = .ok results b') : b'.Tidy ∧ results.Fresh := by
  obtain ⟨⟨⟩, b₁, hlimit, hrun⟩ := of_bind_run_ok hrun
  cases eq_of_limitNesting hlimit
  obtain ⟨sig, b₂, hsig, hrun⟩ := of_bind_run_ok hrun
  cases eq_of_require hsig
  obtain ⟨⟨⟩, b₃, hsettle, hrun⟩ := of_bind_run_ok hrun
  obtain ⟨params, b₄, hpop, hrun⟩ := of_bind_run_ok hrun
  obtain ⟨hfixed, hparams⟩ := h.prepare hsettle hpop
  rw [bind_run_ok (declareAll_run _), bind_run_ok newLabel_run, bind_run_ok (emit_run _)] at hrun
  cases hrun
  exact ⟨Builder.tidy_inside hfixed fun op hop => hparams op (List.mem_reverse.1 hop),
    fresh_temps _ _⟩

lemma Builder.Tidy.openLoop (h : b.Tidy) {results : Target}
    (hrun : openLoop m ty b = .ok results b') : b'.Tidy ∧ results.Fresh := by
  obtain ⟨⟨⟩, b₁, hlimit, hrun⟩ := of_bind_run_ok hrun
  cases eq_of_limitNesting hlimit
  obtain ⟨sig, b₂, hsig, hrun⟩ := of_bind_run_ok hrun
  cases eq_of_require hsig
  obtain ⟨⟨⟩, b₃, hsettle, hrun⟩ := of_bind_run_ok hrun
  obtain ⟨params, b₄, hpop, hrun⟩ := of_bind_run_ok hrun
  obtain ⟨hfixed, -⟩ := h.prepare hsettle hpop
  rw [bind_run_ok (declareAll_run _), bind_run_ok (declareParams_run _), bind_run_ok newLabel_run,
    bind_run_ok (emit_run _)] at hrun
  cases hrun
  -- the parameters of a loop are new variables
  exact ⟨Builder.tidy_inside hfixed fun op hop => fixed_freshOperands op (List.mem_reverse.1 hop),
    fresh_temps _ _⟩

lemma Builder.Tidy.openIf (h : b.Tidy) {hasElse : Bool} {arm : ElseArm}
    (hrun : openIf m ty hasElse b = .ok arm b') :
    b'.Tidy ∧ arm.results.Fresh ∧ ∀ op ∈ arm.params, op.Fixed := by
  obtain ⟨⟨⟩, b₁, hlimit, hrun⟩ := of_bind_run_ok hrun
  cases eq_of_limitNesting hlimit
  obtain ⟨sig, b₂, hsig, hrun⟩ := of_bind_run_ok hrun
  cases eq_of_require hsig
  split at hrun
  · cases hrun
  · obtain ⟨cond, b₃, hcond, hrun⟩ := of_bind_run_ok hrun
    obtain ⟨hpopped, -⟩ := (composed_popAtom _).preserves.of_ok ⟨h, rfl⟩ hcond
    obtain ⟨⟨⟩, b₄, hsettle, hrun⟩ := of_bind_run_ok hrun
    obtain ⟨params, b₅, hpop, hrun⟩ := of_bind_run_ok hrun
    obtain ⟨hfixed, hparams⟩ := hpopped.prepare hsettle hpop
    rw [bind_run_ok (declareAll_run _), bind_run_ok newLabel_run, bind_run_ok (emit_run _),
      bind_run_ok (emit_run _)] at hrun
    cases hrun
    exact ⟨Builder.tidy_inside hfixed fun op hop => hparams op (List.mem_reverse.1 hop),
      fresh_temps _ _, hparams⟩

/-- In the frame around a construct no operand depends on a local. -/
lemma Builder.Tidy.endThen (h : b.Tidy) (hinside : 0 < b.depth)
    (hrun : endThen b = .ok () b') : AllFixed b'.frames ∧ b'.chain = b.chain.dropLast := by
  obtain ⟨⟨⟩, b₁, hfall, hclose⟩ := of_bind_run_ok hrun
  obtain ⟨hfallen, hchain⟩ := composed_fallThrough.preserves.of_ok ⟨h, rfl⟩ hfall
  cases henclosing : b₁.enclosing with
  | nil =>
    -- falling through leaves no frame, and there is one around the construct
    have hlen := congrArg List.length hchain
    rw [b₁.length_chain, b.length_chain, Builder.depth, henclosing] at hlen
    simp only [List.length_nil] at hlen
    omega
  | cons frame outer =>
    have houter := hfallen.outer
    rw [henclosing] at houter
    cases (closeFrame_run henclosing).symm.trans hclose
    refine ⟨houter, ?_⟩
    rw [← hchain, Builder.chain, Builder.chain, Builder.frames, Builder.frames, henclosing]
    simp [Builder.withFrames]

end

/-! ### The tasks that remain -/

/-- What remains to be done fits to the number of frames around the current place.  The results of
constructs are in variables, and the parameters of second arms do not depend on locals. -/
inductive Pending : List Task → Nat → Prop
  | nothing : Pending [] 0
  | run {instrs : List Instr} {tasks : List Task} {d : Nat} (hrest : Pending tasks d) :
      Pending (.run instrs :: tasks) d
  | close {scopes : Nat} {results : Target} {tasks : List Task} {d : Nat} (hfresh : results.Fresh)
      (hrest : Pending tasks d) : Pending (.close true scopes results :: tasks) (d + 1)
  | left {scopes : Nat} {results : Target} {tasks : List Task} {d : Nat} (hfresh : results.Fresh)
      (hrest : Pending tasks d) : Pending (.close false scopes results :: tasks) d
  | second {arm : ElseArm} {elseBody : List Instr} {scopes : Nat} {results : Target}
      {tasks : List Task} {d : Nat} (hparams : ∀ op ∈ arm.params, op.Fixed)
      (hfresh : results.Fresh) (hrest : Pending tasks d) :
      Pending
        (.second arm elseBody :: .close (needsElse elseBody arm.results) scopes results :: tasks)
        (d + 1)

/-- What is known of the state that a turn of the loop starts from. -/
structure Placed (m : Module) (body : List Instr) (start : Builder) (tasks : List Task)
    (b : Builder) : Prop where
  tidy : b.Tidy
  pending : Pending tasks b.depth
  nested : Nested m body start b

lemma endConstruct_eq (inFrame : Bool) (scopes : Nat) (results : Target) :
    endConstruct inFrame scopes results = (do
      if inFrame then endThen
      finish scopes results) := by
  cases inFrame with
  | false => rfl
  | true => simp only [endConstruct, endThen, finish, if_true, bind_assoc]

lemma composed_finish (scopes : Nat) {results : Target} (h : results.Fresh) :
    Composed (finish scopes results) :=
  (composed_closeScopes scopes).bind fun _ => composed_pushAllBound h _

lemma depth_of_chain {b b' : Builder} (h : b'.chain = b.chain) : b'.depth = b.depth := by
  have hlen := congrArg List.length h
  rw [b.length_chain, b'.length_chain] at hlen
  omega

lemma depth_of_dropLast {b b' : Builder} (h : b'.chain = b.chain.dropLast) :
    b'.depth = b.depth - 1 := by
  have hlen := congrArg List.length h
  rw [List.length_dropLast, b.length_chain, b'.length_chain] at hlen
  omega

section

variable {m : Module} {body : List Instr} {start b b' : Builder} {task : Task}
  {tasks tasks' : List Task}

namespace Placed

/-- A turn that stays in the innermost frame. -/
lemma stay (h : Placed m body start tasks b) {α : Type} {x : Build α} (hx : Composed x) {a : α}
    (hrun : x b = .ok a b') (hpending : Pending tasks' b.depth) :
    Placed m body start tasks' b' := by
  obtain ⟨htidy, hchain⟩ := hx.preserves.of_ok ⟨h.tidy, rfl⟩ hrun
  refine ⟨htidy, ?_, h.nested.outward (hchain ▸ List.prefix_refl _)⟩
  rw [depth_of_chain hchain]
  exact hpending

/-- A turn that opens a construct. -/
lemma enter (h : Placed m body start tasks b) (hvisits : Visits m body start tasks b)
    (hopens : Opens m b b') (htidy : b'.Tidy) (hpending : Pending tasks' (b.depth + 1)) :
    Placed m body start tasks' b' := by
  refine ⟨htidy, ?_, h.nested.inward (.between hvisits) hopens⟩
  rw [hopens.oneMore.depth]
  exact hpending

/-- What the end of a body leads to. -/
lemma leave (h : Placed m body start tasks b) {d : Nat} (hd : b.depth = d + 1)
    (hend : endThen b = .ok () b') :
    AllFixed b'.frames ∧ b'.depth = d ∧ Nested m body start b' := by
  obtain ⟨hfixed, hchain⟩ := h.tidy.endThen (by omega) hend
  refine ⟨hfixed, by rw [depth_of_dropLast hchain, hd]; rfl, h.nested.outward ?_⟩
  rw [hchain]
  exact List.dropLast_prefix _

/-- Every turn leads to such a state. -/
lemma turn (h : Placed m body start (task :: tasks) b)
    (hvisits : Visits m body start (task :: tasks) b)
    (hturn : turn m task tasks b = .ok tasks' b') : Placed m body start tasks' b' := by
  have hpending := h.pending
  -- what is pending depends on the depth, which has to be a variable to take it apart
  generalize hd : b.depth = depth at hpending
  cases task with
  | run instrs =>
    have hrest : Pending tasks b.depth := by
      cases hpending with
      | run hrest => exact hd ▸ hrest
    simp only [Lowering.turn] at hturn
    rw [bind_run_ok (get_run b)] at hturn
    -- a sequence that is not reached, or has come to its end, is dropped
    split at hturn
    · cases hturn
      exact ⟨h.tidy, hrest, h.nested⟩
    · split at hturn
      · cases hturn
        exact ⟨h.tidy, hrest, h.nested⟩
      · obtain ⟨results, b₁, hopen, hpure⟩ := of_bind_run_ok hturn
        cases hpure
        obtain ⟨htidy, hfresh⟩ := h.tidy.openBlock hopen
        exact h.enter hvisits (.block hopen) htidy (.run (.close hfresh (.run hrest)))
      · obtain ⟨results, b₁, hopen, hpure⟩ := of_bind_run_ok hturn
        cases hpure
        obtain ⟨htidy, hfresh⟩ := h.tidy.openLoop hopen
        exact h.enter hvisits (.loop hopen) htidy (.run (.close hfresh (.run hrest)))
      · obtain ⟨arm, b₁, hopen, hpure⟩ := of_bind_run_ok hturn
        cases hpure
        obtain ⟨htidy, hfresh, hparams⟩ := h.tidy.openIf hopen
        exact h.enter hvisits (.firstArm hopen) htidy (.run (.second hparams hfresh (.run hrest)))
      · obtain ⟨⟨⟩, b₁, hsimple, hpure⟩ := of_bind_run_ok hturn
        cases hpure
        exact h.stay (composed_lowerSimple m _) hsimple (.run hrest)
  | second arm elseBody =>
    cases hpending with
    | second hparams hfresh hrest =>
      obtain ⟨⟨⟩, b₁, hend, hturn⟩ := of_bind_run_ok hturn
      obtain ⟨hfixed, hdepth, hnested⟩ := h.leave hd hend
      split at hturn
      · -- the second arm is opened from the state in between, where all operands are fixed
        rename_i hneeds
        obtain ⟨⟨⟩, b₂, hopen, hpure⟩ := of_bind_run_ok hturn
        cases hpure
        have hopens : Opens m b₁ b' := .secondArm hopen
        refine ⟨?_, ?_, hnested.inward (.arms hvisits hend) hopens⟩
        · cases (openElse_run arm).symm.trans hopen
          exact Builder.tidy_inside hfixed fun op hop => hparams op (List.mem_reverse.1 hop)
        · rw [hopens.oneMore.depth, hdepth, hneeds]
          exact .run (.close hfresh hrest)
      · rename_i hneeds
        cases hturn
        refine ⟨hfixed.tidy, ?_, hnested⟩
        rw [hdepth, Bool.eq_false_iff.2 hneeds]
        exact .left hfresh hrest
  | close inFrame scopes results =>
    obtain ⟨⟨⟩, b₁, hclose, hpure⟩ := of_bind_run_ok hturn
    cases hpure
    rw [endConstruct_eq] at hclose
    cases hpending with
    | close hfresh hrest =>
      obtain ⟨⟨⟩, b₁, hend, hfinish⟩ := of_bind_run_ok hclose
      obtain ⟨hfixed, hdepth, hnested⟩ := h.leave hd hend
      have hleft : Placed m body start tasks b₁ := ⟨hfixed.tidy, hdepth ▸ hrest, hnested⟩
      exact hleft.stay (composed_finish _ hfresh) hfinish (hdepth ▸ hrest)
    | left hfresh hrest => exact h.stay (composed_finish _ hfresh) hclose (hd ▸ hrest)

end Placed

lemma stops_endThen {c : List (FrameKind × Label × Target × Target)} :
    Stops (Builder.TidyIn c) endThen :=
  composed_fallThrough.preserves.before fun _ _ _ _ _ hrun => nomatch hrun

/-- A turn that fails stops in frames that were there before it. -/
lemma Placed.stopped (h : Placed m body start (task :: tasks) b) {e : Error}
    (hturn : Lowering.turn m task tasks b = .error e b') : b'.Tidy ∧ b'.chain <+: b.chain := by
  -- for turns that fail inside of the frames in which they started
  have hhere {α : Type} {x : Build α} (hx : Stops (Builder.TidyIn b.chain) x)
      (hrun : x b = .error e b') : b'.Tidy ∧ b'.chain <+: b.chain := by
    obtain ⟨htidy, hchain⟩ := hx ⟨h.tidy, rfl⟩ hrun
    exact ⟨htidy, hchain ▸ List.prefix_refl _⟩
  cases task with
  | run instrs =>
    simp only [Lowering.turn] at hturn
    rw [bind_run_ok (get_run b)] at hturn
    split at hturn
    · cases hturn
    · split at hturn
      · cases hturn
      · rcases of_bind_run_error hturn with hopen | ⟨_, _, -, hpure⟩
        · exact hhere (opening_block m _).stops hopen
        · cases hpure
      · rcases of_bind_run_error hturn with hopen | ⟨_, _, -, hpure⟩
        · exact hhere (opening_loop m _).stops hopen
        · cases hpure
      · rcases of_bind_run_error hturn with hopen | ⟨_, _, -, hpure⟩
        · exact hhere (opening_if m _ _).stops hopen
        · cases hpure
      · rcases of_bind_run_error hturn with hsimple | ⟨_, _, -, hpure⟩
        · exact hhere (composed_lowerSimple m _).preserves.of_error hsimple
        · cases hpure
  | second arm elseBody =>
    rcases of_bind_run_error hturn with hend | ⟨_, b₁, -, hrest⟩
    · exact hhere stops_endThen hend
    · split at hrest
      · rw [bind_run_ok (openElse_run arm)] at hrest
        cases hrest
      · cases hrest
  | close inFrame scopes results =>
    have hpending := h.pending
    generalize hd : b.depth = depth at hpending
    rcases of_bind_run_error hturn with hclose | ⟨_, _, -, hpure⟩
    · rw [endConstruct_eq] at hclose
      cases hpending with
      | close hfresh hrest =>
        rcases of_bind_run_error hclose with hend | ⟨_, b₁, hend, hfinish⟩
        · exact hhere stops_endThen hend
        · -- the frame was left before, so one is missing
          obtain ⟨hfixed, hchain⟩ := h.tidy.endThen (by omega) hend
          have hleft : b₁.TidyIn b₁.chain := ⟨hfixed.tidy, rfl⟩
          obtain ⟨htidy, hsame⟩ := (composed_finish _ hfresh).preserves.of_error hleft hfinish
          refine ⟨htidy, ?_⟩
          rw [hsame, hchain]
          exact List.dropLast_prefix _
      | left hfresh hrest => exact hhere (composed_finish _ hfresh).preserves.of_error hclose
    · cases hpure

/-- Every state between two turns is such a state. -/
lemma Visits.placed {locals results : List ValType} {out : Array Line}
    (h : Visits m body (.start locals results out) tasks b) :
    Placed m body (.start locals results out) tasks b := by
  induction h with
  | start =>
    have htidy : (Builder.start locals results out).Tidy :=
      ⟨List.forall_mem_nil _, List.forall_mem_nil _⟩
    exact ⟨htidy, .run .nothing, fun i hi => absurd hi (Nat.not_lt_zero i)⟩
  | turn hvisits hturn ih => exact ih.turn hvisits hturn

/-- Wherever the lowering of a body comes past, only operands of the innermost frame read locals,
and the frames lie one inside of the other. -/
lemma Passes.tidy {locals results : List ValType} {out : Array Line}
    (h : Passes m body (.start locals results out) b) :
    b.Tidy ∧ Nested m body (.start locals results out) b := by
  cases h with
  | between hvisits => exact ⟨hvisits.placed.tidy, hvisits.placed.nested⟩
  | arms hvisits hend =>
    have hplaced := hvisits.placed
    have hpending := hplaced.pending
    generalize hd : Builder.depth _ = depth at hpending
    cases hpending with
    | second =>
      obtain ⟨hfixed, -, hnested⟩ := hplaced.leave hd hend
      exact ⟨hfixed.tidy, hnested⟩
  | stopped hvisits hturn =>
    obtain ⟨htidy, hchain⟩ := hvisits.placed.stopped hturn
    exact ⟨htidy, hvisits.placed.nested.outward hchain⟩

end

/-! ### Writes to a local -/

/-- An operand and what it is after a write to a local: the same if it does not read the local, and
a variable that holds the value of the local if it does. -/
inductive Rebinds (index : Nat) (lets : List Line) : Operand → Operand → Prop
  | kept {op : Operand} (hother : ¬ op.Mentions index) : Rebinds index lets op op
  | bound {var : Name} {ty : ValType}
      (hline : Line.bind false var ty (.atom (localOperand index ty).atom) ∈ lets) :
      Rebinds index lets (localOperand index ty) ⟨.bound var, ty⟩

/-- A frame and what it is after a write to a local, operand by operand. -/
def FrameRebinds (index : Nat) (lets : List Line) (frame frame' : Frame) : Prop :=
  frame'.outline = frame.outline ∧ List.Forall₂ (Rebinds index lets) frame.stack frame'.stack

/-- What a write to a local does: `value` is taken off, which leaves the frames `rest`, the operands
that read the local are bound by the lines `lets`, and then the local is assigned. -/
structure Overwrites (index : Nat) (b b' : Builder) (value : Operand) (rest : List Frame)
    (lets : List Line) : Prop where
  typed : b.locals[index]? = some value.ty
  taken : TakesOne b.frames value rest
  out : b'.out.toList = b.out.toList ++ lets ++ [Line.assign [.slot index] [value.atom]]
  /-- none of the lines opens or closes a scope -/
  level : ∀ line ∈ lets, ∃ text, line.layout = .plain text
  rebound : List.Forall₂ (FrameRebinds index lets) rest b'.frames
  unread : ∀ op ∈ b'.operands, ¬ op.Mentions index

lemma reads_of_staleAtom {index : Nat} {op : Operand} {atom : Atom}
    (h : staleAtom (· == index) op = some atom) : op.reads = some index := by
  unfold staleAtom at h
  unfold Operand.reads
  split at h
  · rename_i hslot
    split at h
    · rename_i hindex
      rw [hslot, eq_of_beq hindex]
    · cases h
  · cases h

lemma reads_ne_of_staleAtom {index : Nat} {op : Operand}
    (h : staleAtom (· == index) op = none) : op.reads ≠ some index := by
  intro hreads
  unfold Operand.reads at hreads
  unfold staleAtom at h
  split at hreads
  · cases hreads
  · simp_all

lemma Rebinds.more {index : Nat} {lets : List Line} {op op' : Operand}
    (h : Rebinds index lets op op') (lines : List Line) : Rebinds index (lets ++ lines) op op' := by
  cases h with
  | kept hother => exact .kept hother
  | bound hline => exact .bound (List.mem_append_left _ hline)

lemma rebinds_settledStack (index n : Nat) {ops : List Operand} (h : ∀ op ∈ ops, op.Genuine) :
    List.Forall₂ (Rebinds index (settledLines (· == index) n ops)) ops
      (settledStack (· == index) n ops) := by
  induction ops with
  | nil => exact .nil
  | cons op below ih =>
    obtain ⟨hop, hbelow⟩ := List.forall_mem_cons.1 h
    rw [settledLines, settledStack]
    cases hstale : staleAtom (· == index) op with
    | none =>
      have hother : ¬ op.Mentions index := fun hmentions =>
        reads_ne_of_staleAtom hstale (hop.of_mentions index hmentions)
      exact .cons (.kept hother) (ih hbelow)
    | some atom =>
      -- the line that binds the operand is the last one, after those of the operands below
      obtain rfl := eq_atom_of_staleAtom hstale
      refine .cons ?_ ((ih hbelow).imp fun _ _ hrebinds => hrebinds.more _)
      have hread : op = localOperand index op.ty := hop.of_reads index (reads_of_staleAtom hstale)
      generalize op.ty = ty at hread
      subst hread
      exact .bound (List.mem_append_right _ (List.mem_singleton_self _))

lemma level_settledLines (which : Nat → Bool) (n : Nat) (ops : List Operand) :
    ∀ line ∈ settledLines which n ops, ∃ text, line.layout = .plain text := by
  induction ops with
  | nil => exact List.forall_mem_nil _
  | cons op below ih =>
    rw [settledLines]
    split
    · exact List.forall_mem_append.2 ⟨ih, List.forall_mem_singleton.2 ⟨_, rfl⟩⟩
    · exact ih

section

variable {m : Module} {b b' : Builder} {index : Nat}

lemma eq_of_typeOfLocal {ty : ValType} (hrun : typeOfLocal index b = .ok ty b') :
    b' = b ∧ b.locals[index]? = some ty := by
  rw [typeOfLocal, bind_run_ok (get_run b)] at hrun
  cases hlocal : b.locals[index]? with
  | none =>
    rw [hlocal] at hrun
    cases hrun
  | some ty' =>
    rw [hlocal] at hrun
    cases hrun
    exact ⟨rfl, rfl⟩

lemma eq_popped_of_popAtom {ty : ValType} {atom : Atom} (hrun : popAtom ty b = .ok atom b') :
    ∃ value, value.ty = ty ∧ atom = value.atom ∧ TakesOne b.frames value (b.popped 1).frames ∧
      b' = b.popped 1 := by
  obtain ⟨atoms, b₁, hpop, hrest⟩ := of_bind_run_ok hrun
  obtain ⟨hle, htypes, rfl, rfl⟩ := popAtoms_cases hpop
  obtain ⟨value, hvalue, hty⟩ := List.map_eq_singleton_iff.1 htypes
  have htakes := takes_popped hle
  rw [List.length_singleton] at hvalue htakes hrest
  rw [hvalue] at htakes hrest
  cases hrest
  cases htakes with
  | more hone hnone =>
    cases hnone
    exact ⟨value, hty, rfl, hone, rfl⟩

/-- Operands that do not depend on a local stay as they are. -/
lemma AllFixed.rebinds {frames : List Frame} (h : AllFixed frames) (lets : List Line) :
    List.Forall₂ (FrameRebinds index lets) frames frames := by
  refine List.forall₂_same.2 fun frame hframe => ⟨rfl, List.forall₂_same.2 fun op hop => ?_⟩
  exact .kept ((h frame hframe op hop).not_mentions index)

lemma Builder.Tidy.setLocal (h : b.Tidy) {name : Name} (hrun : setLocal index b = .ok name b') :
    ∃ value rest lets, Overwrites index b b' value rest lets := by
  obtain ⟨ty, b₁, htype, hrest⟩ := of_bind_run_ok hrun
  obtain ⟨rfl, hlocal⟩ := eq_of_typeOfLocal htype
  obtain ⟨atom, b₂, hpop, hwrite⟩ := of_bind_run_ok hrest
  obtain ⟨value, rfl, rfl, htaken, rfl⟩ := eq_popped_of_popAtom hpop
  -- the value may come from an enclosing frame, but these have nothing to bind
  have htidy := h.popped 1
  rw [bind_run_ok (settle_run _ htidy.outer.settled), bind_run_ok (emit_run _), pure_run] at hwrite
  cases hwrite
  refine ⟨value, _, settledLines (· == index) b₁.nextVar (b₁.popped 1).current.stack, hlocal,
    htaken, ?_, level_settledLines _ _ _, ?_, ?_⟩
  · simp [Builder.popped]
  · exact .cons ⟨rfl, rebinds_settledStack _ _ htidy.inner⟩ (htidy.outer.rebinds _)
  · intro op hop hmentions
    rcases List.mem_append.1 hop with hop | hop
    · have hreads := (genuine_settledStack htidy.inner op hop).of_mentions index hmentions
      have hother := reads_settledStack hop hreads
      simp at hother
    · obtain ⟨frame, hframe, hmem⟩ := List.mem_flatMap.1 hop
      exact (htidy.outer frame hframe op hmem).not_mentions index hmentions

/-- The value that `local.tee` leaves is a new read of the local that it has just written. -/
lemma Builder.Tidy.teeLocal (h : b.Tidy) (hrun : teeLocal index b = .ok () b') :
    ∃ value rest lets b₁, Overwrites index b b₁ value rest lets ∧
      b' = b₁.withStack (localOperand index value.ty :: b₁.current.stack) := by
  obtain ⟨name, b₁, hset, hget⟩ := of_bind_run_ok hrun
  obtain ⟨value, rest, lets, hwrites⟩ := h.setLocal hset
  have hlocals : b₁.locals = b.locals := (setLocal_keeps_locals index).of_ok hset
  cases (getLocal_run (hlocals ▸ hwrites.typed)).symm.trans hget
  exact ⟨value, rest, lets, b₁, hwrites, rfl⟩

end

/-- No read of a local in this state of a lowering waits longer than the local keeps its value. -/
structure UpToDate (m : Module) (body : List Instr) (start b : Builder) : Prop where
  nested : Nested m body start b
  /-- only operands of the innermost frame read locals -/
  outer : ∀ frame ∈ b.enclosing, ∀ op ∈ frame.stack, ∀ index, ¬ op.Mentions index
  set : ∀ index b', lowerSimple m (.localSet index) b = .ok () b' →
    ∃ value rest lets, Overwrites index b b' value rest lets
  tee : ∀ index b', lowerSimple m (.localTee index) b = .ok () b' →
    ∃ value rest lets b₁, Overwrites index b b₁ value rest lets ∧
      b' = b₁.withStack (localOperand index value.ty :: b₁.current.stack)

/-- No deferred read goes stale, in any state that the lowering of a body passes on its way to
whatever end. -/
theorem deferredReads_neverStale (m : Module) (body : List Instr) (locals results : List ValType)
    (out : Array Line) :
    let start := Builder.start locals results out
    (∀ b, (lowerBody m body start = .ok () b ∨ ∃ e, lowerBody m body start = .error e b) →
      Passes m body start b) ∧
    ∀ b, Passes m body start b → UpToDate m body start b := by
  intro start
  refine ⟨fun b => passes_of_lowerBody, fun b hpasses => ?_⟩
  obtain ⟨htidy, hnested⟩ := hpasses.tidy
  refine ⟨hnested, fun frame hframe op hop => (htidy.outer frame hframe op hop).not_mentions,
    fun index b' hrun => ?_, fun index b' hrun => htidy.teeLocal hrun⟩
  obtain ⟨name, b₁, hset, hpure⟩ := of_bind_run_ok hrun
  cases hpure
  exact htidy.setLocal hset

/-! A read in front of a block and one inside of it, before the local is written there. -/

/-- `local.get 0 block local.get 0 i32.const 7 local.set 0 end`. -/
def readThenWrite : List Instr :=
  [.localGet 0, .block .empty [.localGet 0, .i32Const 7, .localSet 0]]

/-- The first read is bound in front of the block, the second one right before the assignment. -/
theorem deferredReads_neverStale_readThenWrite :
    ∃ b b', Passes {} readThenWrite (.start [.i32] [] #[]) b ∧
      lowerSimple {} (.localSet 0) b = .ok () b' ∧
      b'.out.toList = [.bind false (.temp 0) .i32 (.atom (.name (.slot 0))),
        .openBlock (.numbered 0), .bind false (.temp 1) .i32 (.atom (.name (.slot 0))),
        .assign [.slot 0] [.i32 7]] ∧
      ∃ value rest lets, Overwrites 0 b b' value rest lets := by
  have hturns : turns {} 4 [.run readThenWrite] (.start [.i32] [] #[]) = .ok _ _ := rfl
  have hpasses := Passes.between (Visits.start.turns hturns)
  exact ⟨_, _, hpasses, rfl, rfl, ((deferredReads_neverStale ..).2 _ hpasses).set 0 _ rfl⟩

end WasmAot.Lowering
