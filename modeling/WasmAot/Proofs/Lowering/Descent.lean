/-
# Lowering by descent into the instructions

`runTasks` is a loop: a turn takes the first task off the list, does a piece of it and puts what is
left of it back in front of the other tasks.  The same lowering is written down here as a descent
into the instruction trees: a construct is opened, its body is lowered, its end falls through, its
frame is left and its scopes are closed; a sequence stops at the first instruction behind which
control never goes on.

The loop does not look at the instructions to find out where to stop, it looks at a flag of the
innermost frame.  That the flag says the same is a fact about frames: an instruction leaves all of
them as they were, except for the operands, and a transfer sets the flag of the innermost one.
-/
import WasmAot.Proofs.Nesting.Plain

namespace WasmAot.Lowering

open Code Stateful

/-! ### The loop, turn by turn -/

/-- Does a piece of the task in front of the others; gives the tasks that remain. -/
def turn (m : Module) : Task → List Task → Build (List Task)
  | .run instrs, tasks => do
    if (← get).current.unreachable then return tasks
    else
      match instrs with
      | [] => return tasks
      | .block ty body :: rest =>
        let results ← openBlock m ty
        return .run body :: .close true 1 results :: .run rest :: tasks
      | .loop ty body :: rest =>
        let results ← openLoop m ty
        return .run body :: .close true 1 results :: .run rest :: tasks
      | .ifElse ty thenBody elseBody :: rest =>
        let arm ← openIf m ty (!elseBody.isEmpty)
        return .run thenBody :: .second arm elseBody ::
          .close (needsElse elseBody arm.results) 2 arm.results :: .run rest :: tasks
      | instr :: rest =>
        lowerSimple m instr
        return .run rest :: tasks
  | .second arm elseBody, tasks => do
    endThen
    if needsElse elseBody arm.results then
      openElse arm
      return .run elseBody :: tasks
    else return tasks
  | .close inFrame scopes results, tasks => do
    endConstruct inFrame scopes results
    return tasks

/-- At most so many turns, less if no task remains; gives the tasks that remain. -/
def turns (m : Module) : Nat → List Task → Build (List Task)
  | 0, tasks => return tasks
  | _ + 1, [] => return []
  | n + 1, task :: tasks => do
    turns m n (← turn m task tasks)

lemma runTasks_nil (m : Module) : runTasks m [] = pure () := by
  rw [runTasks.eq_def]

/-- The tasks are done turn by turn. -/
lemma runTasks_cons (m : Module) (task : Task) (tasks : List Task) :
    runTasks m (task :: tasks) = turn m task tasks >>= runTasks m := by
  rw [runTasks.eq_def]
  cases task with
  | run instrs =>
    simp only [turn, bind_assoc]
    congr 1
    funext b
    split
    · rw [pure_bind]
    · split <;> simp only [bind_assoc, pure_bind]
  | second arm elseBody =>
    simp only [turn, bind_assoc]
    congr 1
    funext _
    split <;> simp only [bind_assoc, pure_bind]
  | close inFrame scopes results => simp only [turn, bind_assoc, pure_bind]

lemma tasksWeight_cons (task : Task) (tasks : List Task) :
    tasksWeight (task :: tasks) = task.weight + tasksWeight tasks := rfl

lemma one_le_weight (task : Task) : 1 ≤ task.weight := by
  cases task <;> simp only [Task.weight] <;> omega

/-- Every turn gets closer to the end. -/
lemma tasksWeight_of_turn {m : Module} {task : Task} {tasks tasks' : List Task} {b b' : Builder}
    (hrun : turn m task tasks b = .ok tasks' b') :
    tasksWeight tasks' < tasksWeight (task :: tasks) := by
  -- enough for every turn that puts no new task in front of the others
  have hdone : tasksWeight tasks < tasksWeight (task :: tasks) := by
    have := one_le_weight task
    rw [tasksWeight_cons]
    omega
  cases task with
  | run instrs =>
    simp only [turn] at hrun
    rw [bind_run_ok (get_run b)] at hrun
    split at hrun
    · cases hrun
      exact hdone
    · split at hrun
      · cases hrun
        exact hdone
      -- a construct is replaced by tasks that weigh less than it does
      all_goals
        obtain ⟨_, _, -, hrun⟩ := of_bind_run_ok hrun
        cases hrun
        simp only [tasksWeight_cons, Task.weight, bodyWeight, instrWeight]
        omega
  | second arm elseBody =>
    obtain ⟨⟨⟩, _, -, hrun⟩ := of_bind_run_ok hrun
    split at hrun
    · obtain ⟨⟨⟩, _, -, hrun⟩ := of_bind_run_ok hrun
      cases hrun
      simp only [tasksWeight_cons, Task.weight]
      omega
    · cases hrun
      exact hdone
  | close inFrame scopes results =>
    obtain ⟨⟨⟩, _, -, hrun⟩ := of_bind_run_ok hrun
    cases hrun
    exact hdone

/-- As many turns as the tasks weigh are enough to do them all. -/
lemma turns_eq_runTasks (m : Module) {n : Nat} {tasks : List Task} (h : tasksWeight tasks ≤ n) :
    turns m n tasks = (do runTasks m tasks; return []) := by
  induction n generalizing tasks with
  | zero =>
    cases tasks with
    | nil => rw [turns, runTasks_nil, pure_bind]
    | cons task tasks =>
      have := one_le_weight task
      rw [tasksWeight_cons] at h
      omega
  | succ n ih =>
    cases tasks with
    | nil => rw [turns, runTasks_nil, pure_bind]
    | cons task tasks =>
      -- what the tasks weigh after the turn is known only of a run, so there is a state here
      funext b
      rw [turns, runTasks_cons, bind_assoc]
      refine bind_run_congr fun tasks' b' hturn => ?_
      have := tasksWeight_of_turn hturn
      rw [ih (by omega)]

/-! ### The descent -/

namespace Descent

mutual

/-- Lowers one instruction and descends into the sequences that it owns. -/
def instr (m : Module) : Instr → Build Unit
  | .block ty body => do
    let results ← openBlock m ty
    seq m body
    fallThrough
    closeFrame
    closeScopes 1
    pushAllBound results.vars results.types
  | .loop ty body => do
    let results ← openLoop m ty
    seq m body
    fallThrough
    closeFrame
    closeScopes 1
    pushAllBound results.vars results.types
  | .ifElse ty thenBody elseBody => do
    let arm ← openIf m ty (!elseBody.isEmpty)
    seq m thenBody
    fallThrough
    closeFrame
    if needsElse elseBody arm.results then
      openElse arm
      seq m elseBody
      fallThrough
      closeFrame
    closeScopes 2
    pushAllBound arm.results.vars arm.results.types
  | simple => lowerSimple m simple

/-- Lowers a sequence up to the first instruction behind which control never goes on. -/
def seq (m : Module) : List Instr → Build Unit
  | [] => return ()
  | first :: rest => do
    instr m first
    if first.isTransfer then return () else seq m rest

end

/-- Lowers a body, unless the place where it starts is never reached. -/
def body (m : Module) (instrs : List Instr) : Build Unit := do
  if (← get).current.unreachable then return () else seq m instrs

end Descent

/-! ### What becomes of the frames -/

/-- Whenever the operation succeeds, the frames before and after it, except for their operands, are
in this relation. -/
def Shifts {α : Type} (R : List Frame → List Frame → Prop) (x : Build α) : Prop :=
  ∀ ⦃b : Builder⦄ ⦃a : α⦄ ⦃b' : Builder⦄, x b = .ok a b' → R b.outlines b'.outlines

/-- The same frames. -/
def Same (before after : List Frame) : Prop :=
  after = before

/-- The same frames around the innermost one. -/
def SameOuter (before after : List Frame) : Prop :=
  after.tail = before.tail

/-- One more frame, whose start is reached. -/
def OneMore (before after : List Frame) : Prop :=
  ∃ frame, frame.unreachable = false ∧ after = frame :: before

/-- One frame less, if there is one around the innermost. -/
def OneLess (before after : List Frame) : Prop :=
  before.tail ≠ [] → after = before.tail

/-- The rest of the innermost frame is never reached. -/
def CutOff (before after : List Frame) : Prop :=
  ∃ frame outer, before = frame :: outer ∧ after = { frame with unreachable := true } :: outer

section

variable {α β : Type} {R : List Frame → List Frame → Prop} {x : Build α} {f : α → Build β}

lemma Shifts.andThen (hx : Shifts R x) (hf : ∀ a, Shifts Same (f a)) : Shifts R (x >>= f) := by
  intro b c b'' hrun
  obtain ⟨a, b', hfirst, hsecond⟩ := of_bind_run_ok hrun
  have hsame : b''.outlines = b'.outlines := hf a hsecond
  rw [hsame]
  exact hx hfirst

lemma Shifts.before (hx : Shifts Same x) (hf : ∀ a, Shifts R (f a)) : Shifts R (x >>= f) := by
  intro b c b'' hrun
  obtain ⟨a, b', hfirst, hsecond⟩ := of_bind_run_ok hrun
  have hsame : b'.outlines = b.outlines := hx hfirst
  rw [← hsame]
  exact hf a hsecond

lemma Silent.shifts (h : Silent x) : Shifts Same x :=
  fun _ _ _ hrun => (h hrun).outlines

lemma Plain.shifts (h : Plain x) : Shifts Same x := by
  intro b a b' hrun
  obtain ⟨lines, -, hemits⟩ := h hrun
  exact hemits.outlines

end

lemma Same.unreachable {b b' : Builder} (h : Same b.outlines b'.outlines) :
    b'.current.unreachable = b.current.unreachable := by
  have hcurrent : b'.current.outline = b.current.outline := (List.cons.inj h).1
  exact (congrArg Frame.unreachable hcurrent :)

lemma OneMore.unreachable {b b' : Builder} (h : OneMore b.outlines b'.outlines) :
    b'.current.unreachable = false := by
  obtain ⟨frame, hflag, hframes⟩ := h
  exact (congrArg Frame.unreachable (List.cons.inj hframes).1).trans hflag

lemma CutOff.unreachable {b b' : Builder} (h : CutOff b.outlines b'.outlines) :
    b'.current.unreachable = true := by
  obtain ⟨frame, outer, -, hframes⟩ := h
  exact congrArg Frame.unreachable (List.cons.inj hframes).1

lemma CutOff.outer {before after : List Frame} (h : CutOff before after) :
    SameOuter before after := by
  obtain ⟨frame, outer, rfl, rfl⟩ := h
  rfl

/-! ### Operations of structured control -/

lemma shifts_emit (line : Line) : Shifts Same (emit line) := by
  intro b _ b' hrun
  cases (emit_run line).symm.trans hrun
  rfl

lemma shifts_newLabel : Shifts Same newLabel := by
  intro b _ b' hrun
  cases newLabel_run.symm.trans hrun
  rfl

lemma shifts_limitNesting : Shifts Same limitNesting := by
  intro b _ b' hrun
  cases eq_of_limitNesting hrun
  rfl

lemma shifts_branchOut (levels : Nat) (values : List Atom) :
    Shifts Same (branchOut levels values) := by
  intro b _ b' hrun
  obtain ⟨exit, -, rfl⟩ := exit_of_branchOut hrun
  rfl

lemma shifts_lowerArms (values : List Atom) (arms : List TableArm) :
    Shifts Same (lowerArms values arms) := by
  induction arms with
  | nil => exact (Silent.pure _).shifts
  | cons arm arms ih =>
    exact (shifts_emit _).before fun _ => (shifts_branchOut _ _).before fun _ =>
      (shifts_emit _).before fun _ => ih

lemma shifts_markUnreachable : Shifts CutOff markUnreachable := by
  intro b _ b' hrun
  cases hrun
  exact ⟨_, _, rfl, rfl⟩

lemma shifts_lowerBr (levels : Nat) : Shifts CutOff (lowerBr levels) :=
  (silent_branchTarget levels).shifts.before fun _ => (silent_popAtoms _).shifts.before fun _ =>
    (shifts_branchOut _ _).before fun _ => shifts_markUnreachable

lemma shifts_lowerBrTable (targets : List Nat) (default : Nat) :
    Shifts CutOff (lowerBrTable targets default) :=
  (silent_popAtom _).shifts.before fun _ => (silent_branchTarget _).shifts.before fun _ =>
    (silent_checkTargets _ _).shifts.before fun _ => (silent_popAtoms _).shifts.before fun _ =>
      (shifts_emit _).before fun _ => (shifts_lowerArms _ _).before fun _ =>
        (shifts_emit _).before fun _ => (shifts_branchOut _ _).before fun _ =>
          (shifts_emit _).before fun _ => (shifts_emit _).before fun _ => shifts_markUnreachable

lemma shifts_lowerBrIf (levels : Nat) : Shifts Same (lowerBrIf levels) :=
  (silent_popAtom _).shifts.before fun _ => (silent_branchTarget _).shifts.before fun _ =>
    (silent_peekAtoms _).shifts.before fun _ => (shifts_emit _).before fun _ =>
      (shifts_branchOut _ _).before fun _ => shifts_emit _

lemma shifts_lowerTableCopy (m : Module) (dst src : Nat) :
    Shifts Same (lowerTableCopy m dst src) := by
  refine (silent_require _).shifts.before fun _ => (silent_require _).shifts.before fun _ =>
    silent_popThree.shifts.before fun _ => ?_
  dsimp only
  split
  · exact shifts_emit _
  · exact (shifts_emit _).before fun _ => (shifts_emit _).before fun _ =>
      (shifts_emit _).before fun _ => (shifts_emit _).before fun _ => shifts_emit _

/-- A transfer cuts off the rest of its sequence. -/
lemma shifts_lowerSimple_transfer (m : Module) {instr : Instr} (h : instr.isTransfer = true) :
    Shifts CutOff (lowerSimple m instr) := by
  cases instr with
  | br levels => exact shifts_lowerBr levels
  | brTable targets default => exact shifts_lowerBrTable targets default
  | ret => exact Silent.get.shifts.before fun _ => shifts_lowerBr _
  | unreachable => exact (shifts_emit _).before fun _ => shifts_markUnreachable
  | _ => cases h

/-- Behind any other instruction that owns none the frames are the same. -/
lemma shifts_lowerSimple (m : Module) {instr : Instr} (h : instr.isTransfer = false) :
    Shifts Same (lowerSimple m instr) := by
  cases hplain : isPlain instr with
  | true => exact (plain_lowerSimple m hplain).shifts
  | false =>
    cases instr with
    | block | loop | ifElse => exact (Silent.pure _).shifts
    | brIf levels => exact shifts_lowerBrIf levels
    | tableCopy dst src => exact shifts_lowerTableCopy m dst src
    | br | brTable | ret | unreachable => cases h
    | _ => cases hplain

lemma shifts_openFrame (kind : FrameKind) (label : Label) (branch results : Target)
    (params : List Operand) : Shifts OneMore (openFrame kind label branch results params) := by
  intro b _ b' hrun
  cases (openFrame_run kind label branch results params).symm.trans hrun
  exact ⟨_, rfl, rfl⟩

lemma shifts_openBlock (m : Module) (ty : BlockType) : Shifts OneMore (openBlock m ty) :=
  shifts_limitNesting.before fun _ => (silent_require _).shifts.before fun _ =>
    (plain_settle _).shifts.before fun _ => (silent_popOperandsOf _).shifts.before fun _ =>
      (plain_declareAll _).shifts.before fun _ => shifts_newLabel.before fun _ =>
        (shifts_emit _).before fun _ => (shifts_openFrame _ _ _ _ _).andThen fun _ =>
          (Silent.pure _).shifts

lemma shifts_openLoop (m : Module) (ty : BlockType) : Shifts OneMore (openLoop m ty) :=
  shifts_limitNesting.before fun _ => (silent_require _).shifts.before fun _ =>
    (plain_settle _).shifts.before fun _ => (silent_popOperandsOf _).shifts.before fun _ =>
      (plain_declareAll _).shifts.before fun _ => (plain_declareParams _).shifts.before fun _ =>
        shifts_newLabel.before fun _ => (shifts_emit _).before fun _ =>
          (shifts_openFrame _ _ _ _ _).andThen fun _ => (Silent.pure _).shifts

lemma shifts_openIf (m : Module) (ty : BlockType) (hasElse : Bool) :
    Shifts OneMore (openIf m ty hasElse) := by
  refine shifts_limitNesting.before fun _ => (silent_require _).shifts.before fun sig => ?_
  split
  · intro b _ b' hrun
    cases hrun
  · exact (silent_popAtom _).shifts.before fun _ => (plain_settle _).shifts.before fun _ =>
      (silent_popOperandsOf _).shifts.before fun _ => (plain_declareAll _).shifts.before fun _ =>
        shifts_newLabel.before fun _ => (shifts_emit _).before fun _ =>
          (shifts_emit _).before fun _ => (shifts_openFrame _ _ _ _ _).andThen fun _ =>
            (Silent.pure _).shifts

lemma shifts_openElse (arm : ElseArm) : Shifts OneMore (openElse arm) :=
  (shifts_emit _).before fun _ => shifts_openFrame _ _ _ _ _

lemma shifts_fallThrough : Shifts Same fallThrough := by
  refine Silent.get.shifts.before fun b => ?_
  dsimp only
  split
  · exact (Silent.pure _).shifts
  · refine (silent_takeResults _).shifts.before fun values =>
      (plain_assignAll _ _).shifts.before fun _ => ?_
    split
    · exact shifts_emit _
    · exact (Silent.pure _).shifts

lemma shifts_closeFrame : Shifts OneLess closeFrame := by
  intro b _ b' hrun hinside
  cases henclosing : b.enclosing with
  | nil =>
    rw [Builder.outlines, Builder.frames, henclosing] at hinside
    exact absurd rfl hinside
  | cons frame outer =>
    cases (closeFrame_run henclosing).symm.trans hrun
    simp only [Builder.outlines, Builder.frames, Builder.withFrames, henclosing, List.map_cons,
      List.tail_cons]

lemma shifts_endThen : Shifts OneLess endThen :=
  shifts_fallThrough.before fun _ => shifts_closeFrame

lemma shifts_closeScopes (n : Nat) : Shifts Same (closeScopes n) := by
  induction n with
  | zero => exact (Silent.pure _).shifts
  | succ n ih => exact (shifts_emit _).before fun _ => ih

/-- The end of a construct is the end of an arm and the closing of the scopes. -/
lemma endConstruct_inFrame (scopes : Nat) (results : Target) :
    endConstruct true scopes results = (do
      endThen
      closeScopes scopes
      pushAllBound results.vars results.types) := by
  simp only [endConstruct, endThen, if_pos, bind_assoc]

/-! ### Instructions and sequences -/

/-- What is done between opening a frame and leaving it does not touch the frames around it. -/
lemma Shifts.within {α β : Type} {x : Build α} {body : α → Build Unit} {rest : α → Build β}
    (hopen : Shifts OneMore x) (hbody : ∀ a, Shifts SameOuter (body a))
    (hrest : ∀ a, Shifts Same (rest a)) :
    Shifts Same (do let a ← x; body a; endThen; rest a) := by
  intro b c b₄ hrun
  obtain ⟨a, b₁, hx, hrun⟩ := of_bind_run_ok hrun
  obtain ⟨⟨⟩, b₂, hseq, hrun⟩ := of_bind_run_ok hrun
  obtain ⟨⟨⟩, b₃, hend, hrun⟩ := of_bind_run_ok hrun
  obtain ⟨frame, -, hopened⟩ := hopen hx
  have houter : b₂.outlines.tail = b.outlines := by
    rw [show b₂.outlines.tail = b₁.outlines.tail from hbody a hseq, hopened, List.tail_cons]
  -- there are frames around the one that is left, since it was opened inside of them
  have hleft : b₃.outlines = b₂.outlines.tail := by
    refine shifts_endThen hend ?_
    rw [houter]
    exact List.cons_ne_nil _ _
  have hsame : b₄.outlines = b₃.outlines := hrest a hrun
  exact (hsame.trans hleft).trans houter

lemma lowerInstr_transfer (m : Module) {instr : Instr} (h : instr.isTransfer = true) :
    lowerInstr m instr = lowerSimple m instr := by
  cases instr with
  | br | brTable | ret | unreachable => rfl
  | _ => cases h

mutual

/-- An instruction behind which control goes on leaves the frames as they are. -/
lemma shifts_lowerInstr (m : Module) (instr : Instr) (h : instr.isTransfer = false) :
    Shifts Same (lowerInstr m instr) := by
  have hclose (scopes : Nat) (results : Target) :
      Shifts Same (do closeScopes scopes; pushAllBound results.vars results.types) :=
    (shifts_closeScopes scopes).before fun _ => (silent_pushAllBound _ _).shifts
  cases instr with
  | block ty body =>
    simp only [lowerInstr, endConstruct_inFrame]
    exact (shifts_openBlock m ty).within (fun _ => shifts_lowerSeq m body) fun _ => hclose _ _
  | loop ty body =>
    simp only [lowerInstr, endConstruct_inFrame]
    exact (shifts_openLoop m ty).within (fun _ => shifts_lowerSeq m body) fun _ => hclose _ _
  | ifElse ty thenBody elseBody =>
    rw [lowerInstr]
    refine (shifts_openIf m ty _).within (fun _ => shifts_lowerSeq m thenBody) fun arm => ?_
    cases needsElse elseBody arm.results with
    | false => exact hclose _ _
    | true =>
      simp only [if_pos, endConstruct_inFrame]
      exact (shifts_openElse arm).within (fun _ => shifts_lowerSeq m elseBody) fun _ => hclose _ _
  | _ => exact shifts_lowerSimple m h

/-- A sequence changes the innermost frame at most. -/
lemma shifts_lowerSeq (m : Module) (body : List Instr) : Shifts SameOuter (lowerSeq m body) := by
  intro b _ b' hrun
  cases body with
  | nil =>
    cases hrun
    rfl
  | cons instr rest =>
    rw [lowerSeq, bind_run_ok (get_run b)] at hrun
    split at hrun
    · cases hrun
      rfl
    · obtain ⟨⟨⟩, b₁, hinstr, hrun⟩ := of_bind_run_ok hrun
      have hrest : b'.outlines.tail = b₁.outlines.tail := shifts_lowerSeq m rest hrun
      refine hrest.trans ?_
      -- a transfer marks the innermost frame, and what is around it stays in both cases
      cases htransfer : instr.isTransfer with
      | false => rw [show b₁.outlines = b.outlines from shifts_lowerInstr m instr htransfer hinstr]
      | true =>
        rw [lowerInstr_transfer m htransfer] at hinstr
        exact (shifts_lowerSimple_transfer m htransfer hinstr).outer

end

/-! ### The loop is the descent -/

/-- Between opening a frame and leaving it, only what is done in a reached place matters. -/
lemma Shifts.congr_within {α β : Type} {x : Build α} {body body' : Build Unit} {rest : α → Build β}
    (hopen : Shifts OneMore x)
    (hbody : ∀ b : Builder, b.current.unreachable = false → body b = body' b) :
    (do let a ← x; body; rest a) = (do let a ← x; body'; rest a) := by
  funext b
  refine bind_run_congr fun a b' hx => ?_
  rw [bind_run, hbody b' (hopen hx).unreachable, ← bind_run]

mutual

/-- An instruction is lowered the same way by the flags and by the descent. -/
lemma lowerInstr_eq_descent (m : Module) (instr : Instr) :
    lowerInstr m instr = Descent.instr m instr := by
  cases instr with
  | block ty body =>
    simp only [lowerInstr, Descent.instr, endConstruct_inFrame, endThen, bind_assoc]
    exact (shifts_openBlock m ty).congr_within fun _ => lowerSeq_eq_descent m body
  | loop ty body =>
    simp only [lowerInstr, Descent.instr, endConstruct_inFrame, endThen, bind_assoc]
    exact (shifts_openLoop m ty).congr_within fun _ => lowerSeq_eq_descent m body
  | ifElse ty thenBody elseBody =>
    simp only [lowerInstr, Descent.instr, endThen, bind_assoc]
    rw [(shifts_openIf m ty _).congr_within fun _ => lowerSeq_eq_descent m thenBody]
    congr 1
    funext arm
    congr 1
    funext _
    congr 1
    funext _
    congr 1
    funext _
    -- the second arm is opened like a construct of its own, after the first was left
    cases needsElse elseBody arm.results with
    | false => rfl
    | true =>
      simp only [if_pos, endConstruct_inFrame, endThen, bind_assoc]
      exact (shifts_openElse arm).congr_within fun _ => lowerSeq_eq_descent m elseBody
  | _ => rfl

/-- In a place that is reached, so is a sequence. -/
lemma lowerSeq_eq_descent (m : Module) (body : List Instr) {b : Builder}
    (hreached : b.current.unreachable = false) : lowerSeq m body b = Descent.seq m body b := by
  cases body with
  | nil => rw [lowerSeq, Descent.seq]
  | cons instr rest =>
    rw [lowerSeq, bind_run_ok (get_run b), if_neg (by simp [hreached]), Descent.seq,
      ← lowerInstr_eq_descent m instr]
    refine bind_run_congr fun _ b' hinstr => ?_
    -- what the descent reads off the instruction is what the loop finds in the innermost frame
    cases htransfer : instr.isTransfer with
    | true =>
      rw [lowerInstr_transfer m htransfer] at hinstr
      have hframes := shifts_lowerSimple_transfer m htransfer hinstr
      rw [lowerSeq_unreached hframes.unreachable, if_pos rfl, pure_run]
    | false =>
      have hframes := shifts_lowerInstr m instr htransfer hinstr
      rw [lowerSeq_eq_descent m rest (hframes.unreachable.trans hreached), if_neg (by simp)]

end

lemma lowerBody_eq_body (m : Module) (instrs : List Instr) :
    lowerBody m instrs = Descent.body m instrs := by
  funext b
  rw [lowerBody_eq_lowerSeq, Descent.body, bind_run_ok (get_run b)]
  cases hflag : b.current.unreachable with
  | true => rw [lowerSeq_unreached hflag, if_pos rfl, pure_run]
  | false => rw [lowerSeq_eq_descent m instrs hflag, if_neg (by simp)]

/-- From every state, the loop over the tasks ends after as many turns as the body weighs, and one
more, and then it has done what the descent does: the builder that it leads to, or the error that it
stops with, is the same. -/
theorem lowerBody_eq_descent (m : Module) (instrs : List Instr) :
    lowerBody m instrs = Descent.body m instrs ∧
      turns m (bodyWeight instrs + 1) [.run instrs] = (do Descent.body m instrs; return []) := by
  have hbody := lowerBody_eq_body m instrs
  refine ⟨hbody, ?_⟩
  have hweight : tasksWeight [.run instrs] = 1 + bodyWeight instrs := rfl
  rw [turns_eq_runTasks m (by omega), ← hbody, lowerBody]

end WasmAot.Lowering
