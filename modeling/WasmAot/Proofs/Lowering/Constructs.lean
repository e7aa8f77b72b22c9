/-
# Opening and closing constructs

The states that the operations of structured control lead to.  To enter a construct adds a frame
(`inside`), to leave one takes it away, and what a branch writes depends only on the frame it leads
to (`exitLines`).
-/
import WasmAot.Proofs.Lowering.Operations

namespace WasmAot.Lowering

open Code Stateful

namespace Builder

/-- The builder inside of one more construct. -/
def inside (b : Builder) (frame : Frame) : Builder :=
  { b with current := frame, enclosing := b.current :: b.enclosing }

/-- The builder after one more label is in use. -/
def labelled (b : Builder) : Builder :=
  { b with nextLabel := b.nextLabel + 1 }

/-- The builder in a place that is never reached. -/
def unreached (b : Builder) : Builder :=
  { b with current := { b.current with unreachable := true } }

@[simp] lemma labelled_wrote (b : Builder) (vars : Nat) (lines : List Line) :
    b.labelled.wrote vars lines = (b.wrote vars lines).labelled := rfl

/-- The builder in other frames. -/
def withFrames (b : Builder) (frame : Frame) (outer : List Frame) : Builder :=
  { b with current := frame, enclosing := outer }

end Builder

variable {b : Builder} {m : Module}

/-! ### Opening -/

lemma limitNesting_run (h : b.depth < maxNesting) : limitNesting b = .ok () b := by
  simp only [limitNesting, bind_run, get_run, if_neg (Nat.not_le.2 h), pure_run]

lemma limitNesting_deep (h : maxNesting ≤ b.depth) :
    limitNesting b = .error (.validation .nestedTooDeeply) b := by
  simp only [limitNesting, bind_run, get_run, if_pos h, throw_run]

lemma newLabel_run : newLabel b = .ok (.numbered b.nextLabel) b.labelled := rfl

lemma openFrame_run (kind : FrameKind) (label : Label) (branch results : Target)
    (params : List Operand) :
    openFrame kind label branch results params b =
      .ok () (b.inside ⟨kind, label, params.reverse, branch, results, false⟩) := rfl

/-- The operands of the innermost frame once all reads of locals are bound. -/
def Builder.settled (b : Builder) : List Operand :=
  settledStack (fun _ => true) b.nextVar b.current.stack

/-- The lines that bind the reads of locals in the innermost frame. -/
def Builder.settling (b : Builder) : List Line :=
  settledLines (fun _ => true) b.nextVar b.current.stack

lemma settleLocals_run (h : Settled b.enclosing) :
    settleLocals b = .ok () ((b.withStack b.settled).wrote b.settling.length b.settling) :=
  settle_run _ h

namespace Builder

/-- The target of the results of a construct that is opened now. -/
def newTarget (b : Builder) (types : List ValType) : Target :=
  ⟨temps (b.nextVar + b.settling.length) types.length, types⟩

/-- The builder inside of a new block, where `top` are its parameters and `rest` stays outside. -/
def blockStart (b : Builder) (sig : FuncType) (top rest : List Operand) : Builder :=
  (((b.withStack rest).wrote (b.settling.length + sig.results.length)
    (b.settling ++ zeroLines (b.nextVar + b.settling.length) sig.results ++
      [.openBlock (.numbered b.nextLabel)])).labelled).inside
        ⟨.block, .numbered b.nextLabel, top, b.newTarget sig.results, b.newTarget sig.results, false⟩

/-- The number of the first parameter of a new loop. -/
def firstParam (b : Builder) (sig : FuncType) : Nat :=
  b.nextVar + (b.settling.length + sig.results.length)

/-- The builder inside of a new loop, whose parameters are copied to variables of the loop. -/
def loopStart (b : Builder) (sig : FuncType) (top rest : List Operand) : Builder :=
  (((b.withStack rest).wrote (b.settling.length + sig.results.length + sig.params.length)
    (b.settling ++ zeroLines (b.nextVar + b.settling.length) sig.results ++
      copyLines (b.firstParam sig) top.reverse ++ [.openLoop (.numbered b.nextLabel)])).labelled).inside
        ⟨.loop, .numbered b.nextLabel, (freshOperands (b.firstParam sig) sig.params).reverse,
          ⟨temps (b.firstParam sig) sig.params.length, sig.params⟩, b.newTarget sig.results, false⟩

/-- The frame of an arm of a new conditional. -/
def armFrame (b : Builder) (sig : FuncType) (top : List Operand) : Frame :=
  ⟨.ifArm, .numbered b.nextLabel, top, b.newTarget sig.results, b.newTarget sig.results, false⟩

/-- The builder inside of the first arm of a new conditional, the condition being off the stack. -/
def thenStart (b : Builder) (cond : Atom) (sig : FuncType) (top rest : List Operand) : Builder :=
  (((b.withStack rest).wrote (b.settling.length + sig.results.length)
    (b.settling ++ zeroLines (b.nextVar + b.settling.length) sig.results ++
      [.openBlock (.numbered b.nextLabel), .openIf cond])).labelled).inside (b.armFrame sig top)

end Builder

section Opening

variable {sig : FuncType} {ty : BlockType} {top rest : List Operand}
  (hdepth : b.depth < maxNesting) (hsig : m.signatureOf ty = .ok sig)
  (hsettled : Settled b.enclosing)

include hdepth hsig hsettled

lemma openBlock_run (hstack : b.settled = top ++ rest)
    (htypes : top.map Operand.ty = sig.params.reverse) :
    openBlock m ty b = .ok (b.newTarget sig.results) (b.blockStart sig top rest) := by
  have hpop := @popOperandsOf_run ((b.withStack b.settled).wrote b.settling.length b.settling)
    top rest sig.params hstack htypes
  rw [openBlock, bind_run_ok (limitNesting_run hdepth), bind_run_ok (require_run hsig),
    bind_run_ok (settleLocals_run hsettled), bind_run_ok hpop, bind_run_ok (declareAll_run _),
    bind_run_ok newLabel_run, bind_run_ok (emit_run _), bind_run_ok (openFrame_run _ _ _ _ _),
    pure_run, List.reverse_reverse]
  simp only [Builder.wrote_withStack, Builder.withStack_withStack, Builder.wrote_wrote,
    Builder.labelled_wrote, Builder.wrote_nextVar, Builder.withStack_nextVar]
  rfl

lemma openLoop_run (hstack : b.settled = top ++ rest)
    (htypes : top.map Operand.ty = sig.params.reverse) :
    openLoop m ty b = .ok (b.newTarget sig.results) (b.loopStart sig top rest) := by
  -- the deferred reads are bound first, so the operands are taken off the settled stack
  have hpop := @popOperandsOf_run ((b.withStack b.settled).wrote b.settling.length b.settling)
    top rest sig.params hstack htypes
  have hincoming : top.reverse.map Operand.ty = sig.params := by
    rw [List.map_reverse, htypes, List.reverse_reverse]
  have hlen : top.length = sig.params.length := by
    simpa using congrArg List.length htypes
  rw [openLoop, bind_run_ok (limitNesting_run hdepth), bind_run_ok (require_run hsig),
    bind_run_ok (settleLocals_run hsettled), bind_run_ok hpop, bind_run_ok (declareAll_run _),
    bind_run_ok (declareParams_run _), bind_run_ok newLabel_run, bind_run_ok (emit_run _),
    bind_run_ok (openFrame_run _ _ _ _ _), pure_run, hincoming, boundVars_freshOperands]
  simp only [Builder.wrote_withStack, Builder.withStack_withStack, Builder.wrote_wrote,
    Builder.labelled_wrote, Builder.wrote_nextVar, Builder.withStack_nextVar, List.length_reverse,
    hlen]
  rfl

omit hdepth hsig hsettled

/-- What opening a conditional leads to, where `cond` is on top and `below` under it. -/
lemma openIf_run {hasElse : Bool} {cond : Operand} {below : List Operand}
    (hdepth : b.depth < maxNesting) (hsig : m.signatureOf ty = .ok sig)
    (hsettled : Settled b.enclosing) (helse : hasElse = false → sig.params = sig.results)
    (hcond : b.current.stack = cond :: below) (hcondType : cond.ty = .i32)
    (hstack : (b.withStack below).settled = top ++ rest)
    (htypes : top.map Operand.ty = sig.params.reverse) :
    openIf m ty hasElse b =
      .ok ⟨.numbered b.nextLabel, (b.withStack below).newTarget sig.results, top.reverse⟩
        ((b.withStack below).thenStart cond.atom sig top rest) := by
  have hpop := @popOperandsOf_run
    (((b.withStack below).withStack (b.withStack below).settled).wrote
      (b.withStack below).settling.length (b.withStack below).settling) top rest sig.params hstack
      htypes
  -- without a second arm a conditional has to hand its parameters on
  have hguard : ¬ ((!hasElse && decide (sig.params ≠ sig.results)) = true) := by
    cases hasElse with
    | false => simp [helse rfl]
    | true => simp
  rw [openIf, bind_run_ok (limitNesting_run hdepth), bind_run_ok (require_run hsig), if_neg hguard,
    bind_run_ok (popAtom_run hcond hcondType),
    bind_run_ok (settleLocals_run (b := b.withStack below) hsettled), bind_run_ok hpop,
    bind_run_ok (declareAll_run _), bind_run_ok newLabel_run, bind_run_ok (emit_run _),
    bind_run_ok (emit_run _), bind_run_ok (openFrame_run _ _ _ _ _), pure_run, List.reverse_reverse]
  simp only [Builder.thenStart, Builder.wrote_withStack, Builder.withStack_withStack,
    Builder.wrote_wrote, Builder.labelled_wrote, Builder.wrote_nextVar, Builder.withStack_nextVar,
    List.append_assoc, List.cons_append, List.nil_append]
  rfl

end Opening

section TooDeep

variable (h : maxNesting ≤ b.depth) (ty : BlockType)

include h

lemma openBlock_deep : openBlock m ty b = .error (.validation .nestedTooDeeply) b := by
  rw [openBlock, bind_run, limitNesting_deep h]

lemma openLoop_deep : openLoop m ty b = .error (.validation .nestedTooDeeply) b := by
  rw [openLoop, bind_run, limitNesting_deep h]

lemma openIf_deep (hasElse : Bool) :
    openIf m ty hasElse b = .error (.validation .nestedTooDeeply) b := by
  rw [openIf, bind_run, limitNesting_deep h]

end TooDeep

/-! ### Closing -/

/-- The assignment of values to variables, if there are any. -/
def assignLines (vars : List Name) (values : List Atom) : List Line :=
  if vars.isEmpty then [] else [.assign vars values]

/-- The lines at the end of a construct, whose operands become its results. -/
def fallLines (frame : Frame) : List Line :=
  if frame.unreachable then []
  else
    assignLines frame.results.vars (frame.stack.reverse.map Operand.atom) ++
      if frame.kind = .loop then [.breakTo frame.label] else []

/-- The operands of a frame are those that its end expects, if its end is reached. -/
def Frame.Finished (frame : Frame) : Prop :=
  frame.unreachable = false → frame.stack.map Operand.ty = frame.results.types.reverse

lemma takeResults_run {types : List ValType}
    (h : b.current.stack.map Operand.ty = types.reverse) :
    takeResults types b = .ok (b.current.stack.reverse.map Operand.atom) (b.withStack []) := by
  have hlen : b.height = types.length := by
    simpa [Builder.height] using congrArg List.length h
  rw [takeResults, bind_run_ok (get_run b), if_pos hlen]
  exact popAtoms_run (List.append_nil _).symm h

lemma fallThrough_run (h : b.current.Finished) :
    fallThrough b =
      .ok () ((b.withStack (if b.current.unreachable then b.current.stack else [])).wrote
        0 (fallLines b.current)) := by
  rw [fallThrough, bind_run_ok (get_run b)]
  cases hu : b.current.unreachable with
  | true =>
    simp only [if_true, pure_run, fallLines, hu, Builder.wrote_zero_nil, Builder.withStack_self]
  | false =>
    simp only [Bool.false_eq_true, if_false, fallLines, hu]
    rw [bind_run_ok (takeResults_run (h hu)), bind_run_ok (assignAll_run _ _)]
    split
    · rw [emit_run, Builder.wrote_wrote]
      rfl
    · rw [pure_run, List.append_nil]
      rfl

lemma closeFrame_run {frame : Frame} {outer : List Frame} (h : b.enclosing = frame :: outer) :
    closeFrame b = .ok () (b.withFrames frame outer) := by
  rw [closeFrame, modify_run]
  simp only [h]
  rfl

/-- The builder in the frames around a construct, with the results of the construct on top. -/
def Builder.resume (b : Builder) (frame : Frame) (outer : List Frame) (n : Nat)
    (types : List ValType) (lines : List Line) : Builder :=
  (b.withFrames { frame with stack := (freshOperands n types).reverse ++ frame.stack } outer).wrote
    0 lines

section Closing

variable {frame : Frame} {outer : List Frame} (h : b.current.Finished)
  (henclosing : b.enclosing = frame :: outer)

include h henclosing

lemma endFrame_run :
    ∃ t, fallThrough b = .ok () t ∧
      closeFrame t = .ok () ((b.withFrames frame outer).wrote 0 (fallLines b.current)) :=
  ⟨_, fallThrough_run h, closeFrame_run (b := (b.withStack _).wrote _ _) henclosing⟩

/-- Falling off the end of the first arm leads to the frame around the conditional. -/
lemma endThen_run :
    endThen b = .ok () ((b.withFrames frame outer).wrote 0 (fallLines b.current)) := by
  obtain ⟨t, hfall, hclose⟩ := endFrame_run h henclosing
  rw [endThen, bind_run_ok hfall, hclose]

/-- Falling off the end of a construct leads to the frame around it, with the results on top. -/
lemma endConstruct_run (scopes n : Nat) (types : List ValType) :
    endConstruct true scopes ⟨temps n types.length, types⟩ b =
      .ok () (b.resume frame outer n types
        (fallLines b.current ++ List.replicate scopes .close)) := by
  obtain ⟨t, hfall, hclose⟩ := endFrame_run h henclosing
  rw [endConstruct, if_pos rfl, bind_run_ok hfall, bind_run_ok hclose]
  change (closeScopes scopes >>= fun _ => pushAllBound (temps n types.length) types) _ = _
  rw [bind_run_ok (closeScopes_run _), pushAllBound_run, Builder.wrote_wrote]
  rfl

end Closing

/-- The end of a conditional without a second arm, whose frame has been left already. -/
lemma endConstruct_left_run (frame : Frame) (outer : List Frame) (scopes n : Nat)
    (types : List ValType) (lines : List Line) :
    endConstruct false scopes ⟨temps n types.length, types⟩
        ((b.withFrames frame outer).wrote 0 lines) =
      .ok () (b.resume frame outer n types (lines ++ List.replicate scopes .close)) := by
  rw [endConstruct, if_neg (by simp)]
  change (closeScopes scopes >>= fun _ => pushAllBound (temps n types.length) types) _ = _
  rw [bind_run_ok (closeScopes_run _), pushAllBound_run, Builder.wrote_wrote]
  rfl

/-- The builder inside of the second arm of a conditional, `b` being the builder in which the
conditional was opened and `b'` that at the end of the first arm. -/
def Builder.elseStart (b b' : Builder) (sig : FuncType) (top rest : List Operand) : Builder :=
  ((b'.withFrames { b.current with stack := rest } b.enclosing).wrote 0
    (fallLines b'.current ++ [.openElse])).inside (b.armFrame sig top)

lemma openElse_run (arm : ElseArm) :
    openElse arm b = .ok () ((b.wrote 0 [.openElse]).inside
      ⟨.ifArm, arm.label, arm.params.reverse, arm.results, arm.results, false⟩) := by
  rw [openElse, bind_run_ok (emit_run _), openFrame_run]

/-! ### Branches -/

/-- What a branch needs to know of the construct that it leads to. -/
structure Exit where
  kind : FrameKind
  label : Label
  target : Target

/-- The way out to the frame. -/
def Frame.exit (frame : Frame) : Exit :=
  ⟨frame.kind, frame.label, frame.branch⟩

/-- The ways out, innermost first. -/
def Builder.exits (b : Builder) : List Exit :=
  b.frames.map Frame.exit

@[simp] lemma exits_withStack (stack : List Operand) : (b.withStack stack).exits = b.exits := rfl

@[simp] lemma exits_wrote (vars : Nat) (lines : List Line) :
    (b.wrote vars lines).exits = b.exits := rfl

@[simp] lemma exits_labelled : b.labelled.exits = b.exits := rfl

@[simp] lemma exits_unreached : b.unreached.exits = b.exits := rfl

@[simp] lemma exits_inside (frame : Frame) : (b.inside frame).exits = frame.exit :: b.exits := rfl

@[simp] lemma length_exits : b.exits.length = b.depth + 1 := by
  simp only [Builder.exits, Builder.frames, List.length_map, List.length_cons, Builder.depth]

/-- What a branch writes. -/
def exitLines (exit : Exit) (values : List Atom) : List Line :=
  match exit.kind with
  | .function => [.returnOk values]
  | .loop => assignLines exit.target.vars values ++ [.continueTo exit.label]
  | .block | .ifArm => assignLines exit.target.vars values ++ [.breakTo exit.label]

section Branches

variable {exit : Exit} {levels : Nat}

lemma targetFrame_run (h : b.exits[levels]? = some exit) :
    ∃ frame : Frame, frame.exit = exit ∧ targetFrame levels b = .ok frame b := by
  rw [Builder.exits, List.getElem?_map, Option.map_eq_some_iff] at h
  obtain ⟨frame, hframe, hexit⟩ := h
  refine ⟨frame, hexit, ?_⟩
  rw [targetFrame, bind_run_ok (get_run b), hframe]
  rfl

lemma branchTarget_run (h : b.exits[levels]? = some exit) :
    branchTarget levels b = .ok exit.target b := by
  obtain ⟨frame, rfl, htarget⟩ := targetFrame_run h
  rw [branchTarget, bind_run_ok htarget, pure_run]
  rfl

lemma branchOut_run {values : List Atom} (h : b.exits[levels]? = some exit)
    (hlen : values.length = exit.target.types.length) :
    branchOut levels values b = .ok () (b.wrote 0 (exitLines exit values)) := by
  obtain ⟨frame, rfl, htarget⟩ := targetFrame_run h
  have hlen' : values.length = frame.branch.types.length := hlen
  rw [branchOut, bind_run_ok htarget, if_pos hlen']
  cases hkind : frame.kind with
  | function => simp only [emit_run, exitLines, Frame.exit, hkind]
  | loop | block | ifArm =>
    simp only [exitLines, Frame.exit, hkind]
    rw [bind_run_ok (assignAll_run _ _), emit_run, Builder.wrote_wrote]
    rfl

/-- A branch that is written leads to a frame. -/
lemma exit_of_branchOut {values : List Atom} {b' : Builder}
    (hrun : branchOut levels values b = .ok () b') :
    ∃ exit, b.exits[levels]? = some exit ∧ b' = b.wrote 0 (exitLines exit values) := by
  cases hexit : b.exits[levels]? with
  | none =>
    rw [Builder.exits, List.getElem?_map, Option.map_eq_none_iff] at hexit
    rw [branchOut, targetFrame, bind_run, bind_run_ok (get_run b), hexit] at hrun
    cases hrun
  | some exit =>
    refine ⟨exit, rfl, ?_⟩
    by_cases hlen : values.length = exit.target.types.length
    · cases (branchOut_run hexit hlen).symm.trans hrun
      rfl
    -- a wrong number of values is refused
    · obtain ⟨frame, rfl, htarget⟩ := targetFrame_run hexit
      have hlen' : ¬ values.length = frame.branch.types.length := hlen
      rw [branchOut, bind_run_ok htarget, if_neg hlen'] at hrun
      cases hrun

lemma lowerBr_run {top rest : List Operand} (h : b.exits[levels]? = some exit)
    (hstack : b.current.stack = top ++ rest)
    (htypes : top.map Operand.ty = exit.target.types.reverse) :
    lowerBr levels b = .ok ()
      ((b.withStack rest).wrote 0 (exitLines exit (top.reverse.map Operand.atom))).unreached := by
  have hlen : (top.reverse.map Operand.atom).length = exit.target.types.length := by
    simpa using congrArg List.length htypes
  rw [lowerBr, bind_run_ok (branchTarget_run h), bind_run_ok (popAtoms_run hstack htypes),
    bind_run_ok (branchOut_run (b := b.withStack rest) h hlen)]
  rfl

lemma lowerBrIf_run {cond : Operand} {top rest : List Operand} (h : b.exits[levels]? = some exit)
    (hstack : b.current.stack = cond :: (top ++ rest)) (hcond : cond.ty = .i32)
    (htypes : top.map Operand.ty = exit.target.types.reverse) :
    lowerBrIf levels b = .ok () ((b.withStack (top ++ rest)).wrote 0
      ([Line.openIf cond.atom] ++ exitLines exit (top.reverse.map Operand.atom) ++
        [Line.close])) := by
  have hlen : (top.reverse.map Operand.atom).length = exit.target.types.length := by
    simpa using congrArg List.length htypes
  have hpeek := @peekAtoms_run (b.withStack (top ++ rest)) top rest _ rfl htypes
  have hout := branchOut_run
    (b := (b.withStack (top ++ rest)).wrote 0 [.openIf cond.atom]) h hlen
  rw [lowerBrIf, bind_run_ok (popAtom_run hstack hcond),
    bind_run_ok (branchTarget_run (b := b.withStack (top ++ rest)) h), bind_run_ok hpeek,
    bind_run_ok (emit_run _), bind_run_ok hout, emit_run]
  simp only [Builder.wrote_wrote]

lemma checkTargets_run {types : List ValType} {targets : List Nat}
    (h : ∀ levels ∈ targets, ∃ exit, b.exits[levels]? = some exit ∧ exit.target.types = types) :
    checkTargets types targets b = .ok () b := by
  induction targets with
  | nil => rfl
  | cons levels rest ih =>
    obtain ⟨exit, hexit, htypes⟩ := h levels List.mem_cons_self
    rw [checkTargets, bind_run_ok (branchTarget_run hexit), if_pos htypes]
    exact ih fun l hl => h l (List.mem_cons_of_mem _ hl)

/-- The lines of an arm of a branch table. -/
def armLines (exits : List Exit) (values : List Atom) (arm : TableArm) : List Line :=
  match exits[arm.levels]? with
  | some exit => [.openCases arm.cases] ++ exitLines exit values ++ [.close]
  | none => []

lemma lowerArms_run {values : List Atom} {arms : List TableArm}
    (h : ∀ arm ∈ arms, ∃ exit, b.exits[arm.levels]? = some exit ∧
      values.length = exit.target.types.length) :
    lowerArms values arms b = .ok () (b.wrote 0 (arms.flatMap (armLines b.exits values))) := by
  induction arms generalizing b with
  | nil => rw [lowerArms, pure_run, List.flatMap_nil, Builder.wrote_zero_nil]
  | cons arm arms ih =>
    obtain ⟨exit, hexit, hlen⟩ := h arm List.mem_cons_self
    have hout := branchOut_run (b := b.wrote 0 [.openCases arm.cases]) hexit hlen
    have hrest : ∀ a ∈ arms, ∃ exit, b.exits[a.levels]? = some exit ∧
        values.length = exit.target.types.length := fun a ha => h a (List.mem_cons_of_mem _ ha)
    rw [lowerArms, bind_run_ok (emit_run _), bind_run_ok hout, bind_run_ok (emit_run _)]
    simp only [Builder.wrote_wrote]
    rw [ih (by simpa using hrest), Builder.wrote_wrote, List.flatMap_cons]
    simp only [armLines, hexit, exits_wrote]

lemma mem_addCase {levels case : Nat} {arms : List TableArm} {l s : Nat} :
    (∃ arm ∈ addCase levels case arms, arm.levels = l ∧ s ∈ arm.cases) ↔
      (∃ arm ∈ arms, arm.levels = l ∧ s ∈ arm.cases) ∨ (levels = l ∧ case = s) := by
  induction arms with
  | nil => simp [addCase, eq_comm]
  | cons arm arms ih =>
    rw [addCase]
    split
    · rename_i heq
      subst heq
      simp only [List.mem_cons, exists_eq_or_imp, List.mem_append, List.mem_nil_iff, or_false]
      grind
    · simp only [List.mem_cons, exists_eq_or_imp, ih]
      grind

/-- The arms of a branch table hold the numbers of the targets that are not the default. -/
lemma mem_tableArms {targets : List Nat} {default l s : Nat} :
    (∃ arm ∈ tableArms targets default, arm.levels = l ∧ s ∈ arm.cases) ↔
      targets[s]? = some l ∧ l ≠ default := by
  -- the arms are collected in a fold, so this is about any arms that are there already
  have hfold : ∀ (pairs : List (Nat × Nat)) (arms : List TableArm),
      (∃ arm ∈ pairs.foldl (fun arms p => if p.1 = default then arms else addCase p.1 p.2 arms) arms,
        arm.levels = l ∧ s ∈ arm.cases) ↔
      (∃ arm ∈ arms, arm.levels = l ∧ s ∈ arm.cases) ∨ ((l, s) ∈ pairs ∧ l ≠ default) := by
    intro pairs
    induction pairs with
    | nil => simp
    | cons p pairs ih =>
      intro arms
      rw [List.foldl_cons, ih]
      split
      · grind
      · rw [mem_addCase]
        grind
  rw [tableArms, hfold, List.mem_zipIdx_iff_getElem?]
  simp

lemma levels_addCase {levels case : Nat} {arms : List TableArm} {arm : TableArm}
    (h : arm ∈ addCase levels case arms) :
    arm.levels = levels ∨ ∃ a ∈ arms, a.levels = arm.levels := by
  induction arms with
  | nil =>
    rw [addCase, List.mem_singleton] at h
    exact Or.inl (by rw [h])
  | cons a arms ih =>
    rw [addCase] at h
    split at h
    · rcases List.mem_cons.1 h with rfl | hmem
      · exact Or.inr ⟨a, List.mem_cons_self, rfl⟩
      · exact Or.inr ⟨arm, List.mem_cons_of_mem _ hmem, rfl⟩
    · rcases List.mem_cons.1 h with rfl | hmem
      · exact Or.inr ⟨arm, List.mem_cons_self, rfl⟩
      · rcases ih hmem with heq | ⟨a', ha', heq⟩
        · exact Or.inl heq
        · exact Or.inr ⟨a', List.mem_cons_of_mem _ ha', heq⟩

/-- Every arm of a branch table leads to one of the targets. -/
lemma levels_tableArms {targets : List Nat} {default : Nat} {arm : TableArm}
    (h : arm ∈ tableArms targets default) : arm.levels ∈ targets := by
  have hfold : ∀ (pairs : List (Nat × Nat)) (arms : List TableArm),
      (∀ p ∈ pairs, p.1 ∈ targets) → (∀ a ∈ arms, a.levels ∈ targets) →
      ∀ a ∈ pairs.foldl (fun arms p => if p.1 = default then arms else addCase p.1 p.2 arms) arms,
        a.levels ∈ targets := by
    intro pairs
    induction pairs with
    | nil => exact fun _ _ harms => harms
    | cons p pairs ih =>
      intro arms hpairs harms
      refine ih _ (fun q hq => hpairs q (List.mem_cons_of_mem _ hq)) ?_
      dsimp only
      split
      · exact harms
      · intro a ha
        rcases levels_addCase ha with heq | ⟨a', ha', heq⟩
        · rw [heq]
          exact hpairs p List.mem_cons_self
        · rw [← heq]
          exact harms a' ha'
  refine hfold _ [] (fun p hp => ?_) (by simp) arm h
  exact List.mem_of_getElem? (List.mem_zipIdx_iff_getElem?.1 hp)

/-- The lines of a branch table. -/
def tableLines (exits : List Exit) (selector : Atom) (values : List Atom) (targets : List Nat)
    (default : Nat) (otherwise : Exit) : List Line :=
  [.openMatch selector] ++ (tableArms targets default).flatMap (armLines exits values) ++
    [.openOtherwise] ++ exitLines otherwise values ++ [.close] ++ [.close]

lemma lowerBrTable_run {targets : List Nat} {default : Nat} {selector : Operand}
    {top rest : List Operand} (h : b.exits[default]? = some exit)
    (htargets : ∀ levels ∈ targets, ∃ e, b.exits[levels]? = some e ∧
      e.target.types = exit.target.types)
    (hstack : b.current.stack = selector :: (top ++ rest)) (hselector : selector.ty = .i32)
    (htypes : top.map Operand.ty = exit.target.types.reverse) :
    lowerBrTable targets default b = .ok () ((b.withStack rest).wrote 0
      (tableLines b.exits selector.atom (top.reverse.map Operand.atom) targets default
        exit)).unreached := by
  have hlen : (top.reverse.map Operand.atom).length = exit.target.types.length := by
    simpa using congrArg List.length htypes
  have harms : ∀ arm ∈ tableArms targets default, ∃ e, b.exits[arm.levels]? = some e ∧
      (top.reverse.map Operand.atom).length = e.target.types.length := by
    intro arm harm
    obtain ⟨e, he, heq⟩ := htargets _ (levels_tableArms harm)
    exact ⟨e, he, by rw [heq, hlen]⟩
  have hpop := @popAtoms_run (b.withStack (top ++ rest)) top rest _ rfl htypes
  have hlower := lowerArms_run
    (b := (b.withStack rest).wrote 0 [.openMatch selector.atom]) harms
  have hout := fun lines => branchOut_run (b := (b.withStack rest).wrote 0 lines) h hlen
  rw [lowerBrTable, bind_run_ok (popAtom_run hstack hselector),
    bind_run_ok (branchTarget_run (b := b.withStack (top ++ rest)) h),
    bind_run_ok (checkTargets_run (b := b.withStack (top ++ rest)) htargets), bind_run_ok hpop,
    bind_run_ok (emit_run _), Builder.withStack_withStack, bind_run_ok hlower,
    bind_run_ok (emit_run _), Builder.wrote_wrote, Builder.wrote_wrote, bind_run_ok (hout _),
    bind_run_ok (emit_run _), bind_run_ok (emit_run _)]
  simp only [Builder.wrote_wrote]
  rfl

/-- The end of the function returns its operands, if it is reached. -/
lemma endFunction_run (h : b.exits[b.depth]? = some exit)
    (htypes : exit.target.types = b.current.results.types) (hfinished : b.current.Finished) :
    endFunction b = .ok () (if b.current.unreachable then b
      else (b.withStack []).wrote 0 (exitLines exit (b.current.stack.reverse.map Operand.atom))) := by
  rw [endFunction, bind_run_ok (get_run b)]
  cases hu : b.current.unreachable with
  | true => rfl
  | false =>
    have hlen : (b.current.stack.reverse.map Operand.atom).length = exit.target.types.length := by
      rw [htypes]
      simpa using congrArg List.length (hfinished hu)
    simp only [Bool.false_eq_true, if_false]
    rw [bind_run_ok (takeResults_run (hfinished hu))]
    exact branchOut_run (b := b.withStack []) h hlen

end Branches

end WasmAot.Lowering
