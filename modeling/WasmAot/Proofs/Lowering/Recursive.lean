/-
# Lowering by recursion on the instructions

`runTasks` keeps what remains to be done on a list of tasks.  The same lowering can be written by
recursion on the instruction trees: open the construct, lower its body, close it.  The two are the
same operation on builders, so a statement about all runs of `runTasks` can be proved by induction
on the instructions.
-/
import WasmAot.Lowering.Method
import WasmAot.Proofs.Stateful

namespace WasmAot.Lowering

open Stateful

mutual

/-- Lowers one instruction, with everything inside of it. -/
def lowerInstr (m : Module) : Instr → Build Unit
  | .block ty body => do
    let results ← openBlock m ty
    lowerSeq m body
    endConstruct true 1 results
  | .loop ty body => do
    let results ← openLoop m ty
    lowerSeq m body
    endConstruct true 1 results
  | .ifElse ty thenBody elseBody => do
    let arm ← openIf m ty (!elseBody.isEmpty)
    lowerSeq m thenBody
    endThen
    if needsElse elseBody arm.results then
      openElse arm
      lowerSeq m elseBody
    endConstruct (needsElse elseBody arm.results) 2 arm.results
  | instr => lowerSimple m instr

/-- Lowers a sequence up to the first place that is never reached. -/
def lowerSeq (m : Module) : List Instr → Build Unit
  | [] => return ()
  | instr :: rest => do
    if (← get).current.unreachable then return ()
    else
      lowerInstr m instr
      lowerSeq m rest

end

lemma lowerSeq_unreached {m : Module} {body : List Instr} {b : Builder}
    (h : b.current.unreachable = true) : lowerSeq m body b = .ok () b := by
  cases body with
  | nil => rw [lowerSeq, pure_run]
  | cons instr rest => rw [lowerSeq, bind_run_ok (get_run b), if_pos h, pure_run]

lemma lowerSeq_cons {m : Module} {instr : Instr} {rest : List Instr} {b : Builder}
    (h : b.current.unreachable = false) :
    lowerSeq m (instr :: rest) b = (do lowerInstr m instr; lowerSeq m rest) b := by
  rw [lowerSeq, bind_run_ok (get_run b), if_neg (by simp [h])]

/-! ### The tasks -/

lemma runTasks_close (m : Module) (inFrame : Bool) (scopes : Nat) (results : Target)
    (tasks : List Task) :
    runTasks m (.close inFrame scopes results :: tasks) = (do
      endConstruct inFrame scopes results
      runTasks m tasks) := by
  rw [runTasks.eq_def]

lemma runTasks_second (m : Module) (arm : ElseArm) (elseBody : List Instr) (tasks : List Task) :
    runTasks m (.second arm elseBody :: tasks) = (do
      endThen
      if needsElse elseBody arm.results then
        openElse arm
        runTasks m (.run elseBody :: tasks)
      else runTasks m tasks) := by
  rw [runTasks.eq_def]

/-- A sequence among the tasks is lowered first, then the other tasks are done. -/
theorem runTasks_run (m : Module) (body : List Instr) (tasks : List Task) :
    runTasks m (.run body :: tasks) = (do lowerSeq m body; runTasks m tasks) := by
  rw [runTasks.eq_def]
  cases body with
  | nil =>
    simp only [lowerSeq, ite_self, pure_bind]
    rfl
  | cons instr rest =>
    simp only [lowerSeq, bind_assoc]
    congr 1
    funext b
    -- in a place that is not reached both sides leave the sequence out
    split
    · rw [pure_bind]
    · cases instr with
      | block ty body | loop ty body =>
        simp only [runTasks_close, runTasks_run m body, runTasks_run m rest, lowerInstr, bind_assoc]
      | ifElse ty thenBody elseBody =>
        simp only [runTasks_close, runTasks_second, runTasks_run m thenBody,
          runTasks_run m elseBody, runTasks_run m rest, lowerInstr, bind_assoc]
        -- what is left is to move the other tasks into the two cases behind the first arm
        congr 1
        funext arm
        congr 1
        funext _
        congr 1
        funext _
        split <;> simp only [bind_assoc]
      | _ => simp only [runTasks_run m rest, lowerInstr, bind_assoc]
termination_by bodyWeight body
decreasing_by
  all_goals simp only [bodyWeight]
  all_goals grind [instrWeight, one_le_instrWeight]

/-- Lowering a body through the list of tasks is lowering it by recursion. -/
lemma lowerBody_eq_lowerSeq (m : Module) (body : List Instr) :
    lowerBody m body = lowerSeq m body := by
  have hnil : runTasks m [] = pure () := by rw [runTasks.eq_def]
  rw [lowerBody, runTasks_run, hnil]
  exact bind_pure_unit

/-! ### Functions -/

/-- The builder before the first instruction of a function. -/
def functionStart (func : FuncDef) (type : FuncType) : Builder :=
  Builder.start (type.params ++ func.locals) type.results
    (declareLocals type.params.length func.locals).toArray

/-- A function is lowered exactly if its body and its end are, and the method has their lines. -/
lemma lowerFunction_eq_ok_iff {m : Module} {position : Nat} {method : Method} :
    lowerFunction m position = .ok method ↔
      ∃ func type b, m.functions[position]? = some func ∧ m.types[func.type]? = some type ∧
        (do lowerSeq m func.body; endFunction) (functionStart func type) = .ok () b ∧
        method = ⟨m.importCount .func + position, type, b.out.toList⟩ := by
  unfold lowerFunction
  cases hfunc : m.functions[position]? with
  | none => simp [outOfRange]
  | some func =>
    cases htype : m.types[func.type]? with
    | none => simp [Module.typeAt, htype, outOfRange, bind, Except.bind]
    | some type =>
      have htypeAt : m.typeAt func.type = .ok type := by rw [Module.typeAt, htype]
      have hbind (f : FuncType → Except Error Method) : (Except.ok type >>= f) = f type := rfl
      simp only [htypeAt, hbind, lowerBody_eq_lowerSeq]
      rw [← functionStart]
      -- the function and its type are given, so the run decides both directions
      cases hrun : (do lowerSeq m func.body; endFunction) (functionStart func type) with
      | ok a b =>
        constructor
        · intro h
          exact ⟨func, type, b, rfl, htype, hrun, (Except.ok.inj h).symm⟩
        · rintro ⟨func', type', b', hfunc', htype', hrun', rfl⟩
          cases hfunc'
          rw [htype] at htype'
          cases htype'
          rw [hrun] at hrun'
          cases hrun'
          rfl
      | error e b =>
        constructor
        · intro h
          cases h
        · rintro ⟨func', type', b', hfunc', htype', hrun', -⟩
          cases hfunc'
          rw [htype] at htype'
          cases htype'
          rw [hrun] at hrun'
          cases hrun'

end WasmAot.Lowering
