/-
# Evaluation of instructions

What a function body computes: instructions work on the locals and on a stack of values, and a
branch takes values from the top of the stack to a label.  Evaluation follows the instruction trees;
only a loop repeats its body, and there the number of rounds is limited by `fuel`.  A function
diverges if no fuel is enough.

The instructions of this file are those on integers, locals and control.  The others are stuck, as
is an instruction whose operands are missing or of the wrong type.
-/
import WasmAot.Proofs.Semantics.Integer
import WasmAot.Proofs.Validation.Typing

namespace WasmAot.Semantics

open Host

/-! ### Runs and their outcomes -/

/-- How a run of a function ends. -/
inductive Outcome where
  | returned (values : List Value)
  | trapped (trap : Trap)
  deriving DecidableEq

/-- What is known of a run after some fuel has been spent. -/
inductive Run where
  | ended (outcome : Outcome)
  | outOfFuel
  | stuck
  deriving DecidableEq

/-- Some fuel is enough for the run to end this way. -/
def EndsIn (run : Nat → Run) (outcome : Outcome) : Prop :=
  ∃ fuel, run fuel = .ended outcome

/-- No fuel is enough. -/
def Diverges (run : Nat → Run) : Prop :=
  ∀ fuel, run fuel = .outOfFuel

/-! ### Instructions -/

/-- Where control is after some instructions.  Stacks are written top first. -/
inductive Flow where
  /-- at the next instruction -/
  | next (locals stack : List Value)
  /-- on the way to a label, with the values that it takes -/
  | branch (depth : Nat) (locals values : List Value)
  | trap (trap : Trap)
  | outOfFuel
  | stuck

namespace Flow

/-- Goes on from the next instruction. -/
def andThen (flow : Flow) (k : List Value → List Value → Flow) : Flow :=
  match flow with
  | next locals stack => k locals stack
  | flow => flow

/-- Leaves a construct: its results, or the values of a branch to its label, lie on what was below.
-/
def leave (below : List Value) : Flow → Flow
  | next locals results => next locals (results ++ below)
  | branch 0 locals values => next locals (values ++ below)
  | branch (depth + 1) locals values => branch depth locals values
  | flow => flow

/-- How the run of a function ends when control is there at the end of its body. -/
def run : Flow → Run
  | next _ results => .ended (.returned results.reverse)
  | branch 0 _ values => .ended (.returned values.reverse)
  | branch (_ + 1) _ _ => .stuck
  | trap t => .ended (.trapped t)
  | outOfFuel => .outOfFuel
  | stuck => .stuck

end Flow

/-- Pushes the result of an operation. -/
def pushResult (locals stack : List Value) : Option (Except Trap Value) → Flow
  | some (.ok v) => .next locals (v :: stack)
  | some (.error t) => .trap t
  | none => .stuck

/-- Branches to a label; `labels` are the numbers of values that the labels take. -/
def branchTo (labels : List Nat) (depth : Nat) (locals stack : List Value) : Flow :=
  match labels[depth]? with
  | some arity =>
    if arity ≤ stack.length then .branch depth locals (stack.take arity) else .stuck
  | none => .stuck

/-- Evaluates an instruction that owns no others.  The last of the labels is the function. -/
def evalSimple (labels : List Nat) (instr : Instr) (locals stack : List Value) : Flow :=
  match instr, stack with
  | .unreachable, _ => .trap .unreachable
  | .nop, stack => .next locals stack
  | .br depth, stack => branchTo labels depth locals stack
  | .brIf depth, .i32 c :: stack =>
    if c = 0 then .next locals stack else branchTo labels depth locals stack
  | .brTable targets default, .i32 s :: stack =>
    branchTo labels (targets[s.toNat]?.getD default) locals stack
  | .ret, stack => branchTo labels (labels.length - 1) locals stack
  | .drop, _ :: stack => .next locals stack
  | .select _, .i32 c :: b :: a :: stack => .next locals ((if c = 0 then b else a) :: stack)
  | .localGet index, stack => pushResult locals stack (locals[index]?.map .ok)
  | .localSet index, v :: stack =>
    if index < locals.length then .next (locals.set index v) stack else .stuck
  | .localTee index, v :: stack =>
    if index < locals.length then .next (locals.set index v) (v :: stack) else .stuck
  | .i32Const value, stack => .next locals (.i32 value :: stack)
  | .i64Const value, stack => .next locals (.i64 value :: stack)
  | .compare ty op, b :: a :: stack => pushResult locals stack ((compareValues ty op a b).map .ok)
  | .unary ty op, a :: stack => pushResult locals stack ((unaryValue ty op a).map .ok)
  | .binary ty op, b :: a :: stack => pushResult locals stack (binaryValues ty op a b)
  | _, _ => .stuck

/-- Evaluates a construct with a signature: `body` starts with the parameters on a stack of its own.
-/
def evalConstruct (sig : Option FuncType) (stack : List Value)
    (body : FuncType → List Value → Flow) : Flow :=
  match sig with
  | none => .stuck
  | some sig =>
    if sig.params.length ≤ stack.length then
      (body sig (stack.take sig.params.length)).leave (stack.drop sig.params.length)
    else .stuck

/-- Repeats the body of a loop as long as it branches to the label of the loop. -/
def evalRounds (body : List Value → List Value → Flow) : Nat → List Value → List Value → Flow
  | 0, _, _ => .outOfFuel
  | n + 1, locals, params =>
    match body locals params with
    | .branch 0 locals values => evalRounds body n locals values
    | flow => flow

mutual

/-- Evaluates an instruction. -/
def evalInstr (m : Module) (fuel : Nat) (labels : List Nat) :
    Instr → List Value → List Value → Flow
  | .block ty body => fun locals stack =>
    evalConstruct (m.signature? ty) stack fun sig params =>
      evalSeq m fuel (sig.results.length :: labels) body locals params
  | .loop ty body => fun locals stack =>
    evalConstruct (m.signature? ty) stack fun sig params =>
      evalRounds (fun locals params => evalSeq m fuel (sig.params.length :: labels) body locals params)
        fuel locals params
  | .ifElse ty thenBody elseBody => fun locals stack =>
    match stack with
    | .i32 c :: stack =>
      evalConstruct (m.signature? ty) stack fun sig params =>
        if c = 0 then evalSeq m fuel (sig.results.length :: labels) elseBody locals params
        else evalSeq m fuel (sig.results.length :: labels) thenBody locals params
    | _ => .stuck
  | instr => fun locals stack => evalSimple labels instr locals stack

/-- Evaluates a sequence of instructions. -/
def evalSeq (m : Module) (fuel : Nat) (labels : List Nat) :
    List Instr → List Value → List Value → Flow
  | [] => fun locals stack => .next locals stack
  | instr :: rest => fun locals stack =>
    (evalInstr m fuel labels instr locals stack).andThen (evalSeq m fuel labels rest)

end

/-- Runs a function on arguments; the other locals are zero at first. -/
def runFunction (m : Module) (func : FuncDef) (type : FuncType) (args : List Value) (fuel : Nat) :
    Run :=
  (evalSeq m fuel [type.results.length] func.body (args ++ func.locals.map Value.zero) []).run

/-! ### More fuel

An evaluation that does not run out of fuel goes the same way with more fuel, so a run ends in at most
one way. -/

namespace Flow

/-- The flow with more fuel, where the first may have run out. -/
def Improves (flow flow' : Flow) : Prop :=
  flow = .outOfFuel ∨ flow' = flow

lemma Improves.refl (flow : Flow) : Improves flow flow := Or.inr rfl

lemma Improves.andThen {flow flow' : Flow} {k k' : List Value → List Value → Flow}
    (h : Improves flow flow') (hk : ∀ locals stack, Improves (k locals stack) (k' locals stack)) :
    Improves (flow.andThen k) (flow'.andThen k') := by
  rcases h with rfl | rfl
  · exact Or.inl rfl
  · cases flow' with
    | next locals stack => exact hk locals stack
    | _ => exact .refl _

lemma Improves.leave {flow flow' : Flow} (h : Improves flow flow') (below : List Value) :
    Improves (flow.leave below) (flow'.leave below) := by
  rcases h with rfl | rfl
  · exact Or.inl rfl
  · exact .refl _

end Flow

lemma evalConstruct_improves {sig : Option FuncType} {stack : List Value}
    {body body' : FuncType → List Value → Flow}
    (h : ∀ sig params, (body sig params).Improves (body' sig params)) :
    (evalConstruct sig stack body).Improves (evalConstruct sig stack body') := by
  unfold evalConstruct
  cases sig with
  | none => exact .refl _
  | some sig =>
    dsimp only
    split
    · exact (h sig _).leave _
    · exact .refl _

lemma evalRounds_improves {body body' : List Value → List Value → Flow}
    (h : ∀ locals params, (body locals params).Improves (body' locals params)) {n n' : Nat}
    (hn : n ≤ n') (locals params : List Value) :
    (evalRounds body n locals params).Improves (evalRounds body' n' locals params) := by
  induction n generalizing n' locals params with
  | zero => exact Or.inl rfl
  | succ n ih =>
    obtain ⟨n', rfl⟩ : ∃ k, n' = k + 1 := ⟨n' - 1, by omega⟩
    rcases h locals params with hout | heq
    · exact Or.inl (by rw [evalRounds, hout])
    · rw [evalRounds, evalRounds, heq]
      split
      · exact ih (by omega) _ _
      · exact .refl _

mutual

lemma evalInstr_improves (m : Module) {fuel fuel' : Nat} (hfuel : fuel ≤ fuel') (labels : List Nat)
    (instr : Instr) (locals stack : List Value) :
    (evalInstr m fuel labels instr locals stack).Improves
      (evalInstr m fuel' labels instr locals stack) := by
  cases instr with
  | block ty body =>
    simp only [evalInstr]
    exact evalConstruct_improves fun sig params => evalSeq_improves m hfuel _ body _ _
  | loop ty body =>
    simp only [evalInstr]
    exact evalConstruct_improves fun sig params =>
      evalRounds_improves (fun _ _ => evalSeq_improves m hfuel _ body _ _) hfuel _ _
  | ifElse ty thenBody elseBody =>
    simp only [evalInstr]
    split
    · refine evalConstruct_improves fun sig params => ?_
      split
      · exact evalSeq_improves m hfuel _ elseBody _ _
      · exact evalSeq_improves m hfuel _ thenBody _ _
    · exact .refl _
  | _ =>
    simp only [evalInstr]
    exact .refl _

lemma evalSeq_improves (m : Module) {fuel fuel' : Nat} (hfuel : fuel ≤ fuel') (labels : List Nat)
    (body : List Instr) (locals stack : List Value) :
    (evalSeq m fuel labels body locals stack).Improves
      (evalSeq m fuel' labels body locals stack) := by
  cases body with
  | nil =>
    simp only [evalSeq]
    exact .refl _
  | cons instr rest =>
    simp only [evalSeq]
    exact (evalInstr_improves m hfuel labels instr locals stack).andThen
      fun locals stack => evalSeq_improves m hfuel labels rest locals stack

end

/-- A run that has ended does not change with more fuel. -/
lemma runFunction_of_le {m : Module} {func : FuncDef} {type : FuncType} {args : List Value}
    {fuel fuel' : Nat} {outcome : Outcome} (hfuel : fuel ≤ fuel')
    (h : runFunction m func type args fuel = .ended outcome) :
    runFunction m func type args fuel' = .ended outcome := by
  rcases evalSeq_improves m hfuel [type.results.length] func.body
    (args ++ func.locals.map Value.zero) [] with hout | heq
  · rw [runFunction, hout] at h
    cases h
  · rw [← h, runFunction, runFunction, heq]

/-- A run ends in at most one way. -/
lemma endsIn_unique {m : Module} {func : FuncDef} {type : FuncType} {args : List Value}
    {outcome outcome' : Outcome} (h : EndsIn (runFunction m func type args) outcome)
    (h' : EndsIn (runFunction m func type args) outcome') : outcome = outcome' := by
  obtain ⟨fuel, hrun⟩ := h
  obtain ⟨fuel', hrun'⟩ := h'
  have hmax := runFunction_of_le (Nat.le_max_left fuel fuel') hrun
  rw [runFunction_of_le (Nat.le_max_right fuel fuel') hrun'] at hmax
  exact (Run.ended.inj hmax).symm

end WasmAot.Semantics
