/-
# Function bodies

The bodies of nested constructs are not lowered by recursion: what remains to be done is kept on a
stack of tasks, and opening a construct puts its body and the closing of it there.  Instructions
after an unconditional transfer are never reached and are left out.
-/
import WasmAot.Lowering.Plain

namespace WasmAot.Lowering

/-- Something that remains to be done. -/
inductive Task where
  /-- the rest of a sequence -/
  | run (instrs : List Instr)
  /-- the end of the first arm of a conditional, and the second arm -/
  | second (arm : ElseArm) (elseBody : List Instr)
  /-- the end of a construct; `inFrame` if its frame is still to be left -/
  | close (inFrame : Bool) (scopes : Nat) (results : Target)

mutual

/-- The number of tasks that an instruction can give rise to, and one more. -/
def instrWeight : Instr → Nat
  | .block _ body => 3 + bodyWeight body
  | .loop _ body => 3 + bodyWeight body
  | .ifElse _ thenBody elseBody => 5 + bodyWeight thenBody + bodyWeight elseBody
  | _ => 1

/-- The weight of a sequence. -/
def bodyWeight : List Instr → Nat
  | [] => 0
  | instr :: rest => instrWeight instr + bodyWeight rest

end

theorem one_le_instrWeight (instr : Instr) : 1 ≤ instrWeight instr := by
  cases instr <;> simp only [instrWeight] <;> omega

/-- The weight of a task: one more than what it can give rise to. -/
def Task.weight : Task → Nat
  | run instrs => 1 + bodyWeight instrs
  | second _ elseBody => 2 + bodyWeight elseBody
  | close .. => 1

/-- The weight of all that remains to be done. -/
def tasksWeight (tasks : List Task) : Nat :=
  (tasks.map Task.weight).foldr (· + ·) 0

/-- Does the tasks in order. -/
def runTasks (m : Module) : List Task → Build Unit
  | [] => return ()
  | .run instrs :: tasks => do
    if (← get).current.unreachable then runTasks m tasks
    else
      match instrs with
      | [] => runTasks m tasks
      | .block ty body :: rest =>
        let results ← openBlock m ty
        runTasks m (.run body :: .close true 1 results :: .run rest :: tasks)
      | .loop ty body :: rest =>
        let results ← openLoop m ty
        runTasks m (.run body :: .close true 1 results :: .run rest :: tasks)
      | .ifElse ty thenBody elseBody :: rest =>
        let arm ← openIf m ty (!elseBody.isEmpty)
        runTasks m
          (.run thenBody :: .second arm elseBody ::
            .close (needsElse elseBody arm.results) 2 arm.results :: .run rest :: tasks)
      | instr :: rest =>
        lowerSimple m instr
        runTasks m (.run rest :: tasks)
  | .second arm elseBody :: tasks => do
    endThen
    if needsElse elseBody arm.results then
      openElse arm
      runTasks m (.run elseBody :: tasks)
    else runTasks m tasks
  | .close inFrame scopes results :: tasks => do
    endConstruct inFrame scopes results
    runTasks m tasks
termination_by tasks => tasksWeight tasks
decreasing_by
  all_goals simp only [tasksWeight, List.map_cons, List.foldr_cons, Task.weight, bodyWeight]
  all_goals grind [instrWeight, one_le_instrWeight]

/-- Lowers a sequence of instructions. -/
def lowerBody (m : Module) (body : List Instr) : Build Unit :=
  runTasks m [.run body]

/-- The return at the end of the function, if its end is reached. -/
def endFunction : Build Unit := do
  let b ← get
  if b.current.unreachable then return ()
  else
    let values ← takeResults b.current.results.types
    branchOut b.depth values

end WasmAot.Lowering
