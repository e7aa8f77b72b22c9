/-
# Structured control

A `block` becomes a labelled block, a `loop` a labelled loop, and an `if` a conditional inside a
labelled block.  The results of a construct travel through variables that are declared before it: to
branch means to assign the variables of the target and to leave the constructs in between.  The
parameters of a loop are such variables too, since a branch to it takes them anew.
-/
import WasmAot.Lowering.Builder
import WasmAot.Module.IndexSpace

namespace WasmAot.Lowering

open Code

/-- Declares a variable for each type, with its zero as first value. -/
def declareAll : List ValType → Build (List Name)
  | [] => return []
  | ty :: types => do
    let var ← newVar
    emit (.bind true var ty (.zero ty))
    let vars ← declareAll types
    return var :: vars

/-- Declares a variable for each operand, with the operand as first value. -/
def declareParams : List Operand → Build (List Operand)
  | [] => return []
  | op :: ops => do
    let var ← newVar
    emit (.bind true var op.ty (.atom op.atom))
    let params ← declareParams ops
    return { slot := .bound var, ty := op.ty } :: params

/-- The variables of operands that are bound. -/
def boundVars (ops : List Operand) : List Name :=
  ops.filterMap fun op =>
    match op.slot with
    | .bound var => some var
    | .deferred .. => none

/-- Fails if one more construct would be nested too deeply. -/
def limitNesting : Build Unit := do
  if maxNesting ≤ (← get).depth then throw (.validation .nestedTooDeeply) else return ()

/-- Takes the operands of the innermost construct off, which have to be exactly of these types. -/
def takeResults (types : List ValType) : Build (List Atom) := do
  let height := (← get).height
  if height = types.length then popAtoms types
  else throw (.typeMismatch (.operands types (← topTypes height)))

/-- Falls off the end of the innermost construct: its operands become its results.  A loop has to be
left explicitly. -/
def fallThrough : Build Unit := do
  let frame := (← get).current
  if frame.unreachable then return ()
  else
    let values ← takeResults frame.results.types
    assignAll frame.results.vars values
    if frame.kind = .loop then emit (.breakTo frame.label) else return ()

/-! ### Opening and closing -/

/-- Opens a block; gives the target of its results. -/
def openBlock (m : Module) (ty : BlockType) : Build Target := do
  limitNesting
  let sig ← require (m.signatureOf ty)
  settleLocals
  let params ← popOperandsOf sig.params
  let vars ← declareAll sig.results
  let label ← newLabel
  emit (.openBlock label)
  let results := { vars, types := sig.results }
  openFrame .block label results results params
  return results

/-- Opens a loop; gives the target of its results. -/
def openLoop (m : Module) (ty : BlockType) : Build Target := do
  limitNesting
  let sig ← require (m.signatureOf ty)
  settleLocals
  let incoming ← popOperandsOf sig.params
  let vars ← declareAll sig.results
  let params ← declareParams incoming
  let label ← newLabel
  emit (.openLoop label)
  let results := { vars, types := sig.results }
  openFrame .loop label { vars := boundVars params, types := sig.params } results params
  return results

/-- What the second arm of a conditional needs to know. -/
structure ElseArm where
  label : Label
  results : Target
  params : List Operand
  deriving DecidableEq

/-- Opens the first arm of a conditional.  The condition is used before either arm.  Without a
second arm the parameters have to serve as results. -/
def openIf (m : Module) (ty : BlockType) (hasElse : Bool) : Build ElseArm := do
  limitNesting
  let sig ← require (m.signatureOf ty)
  if !hasElse && sig.params ≠ sig.results then
    throw (.typeMismatch (.missingElse sig.results sig.params))
  else
    let cond ← popAtom .i32
    settleLocals
    let params ← popOperandsOf sig.params
    let vars ← declareAll sig.results
    let results := { vars, types := sig.results }
    let label ← newLabel
    emit (.openBlock label)
    emit (.openIf cond)
    openFrame .ifArm label results results params
    return { label, results, params }

/-- The second arm is written if it has instructions, or if it has to hand parameters on. -/
def needsElse (elseBody : List Instr) (results : Target) : Bool :=
  !elseBody.isEmpty || !results.types.isEmpty

/-- Ends the first arm of a conditional. -/
def endThen : Build Unit := do
  fallThrough
  closeFrame

/-- Opens the second arm of a conditional. -/
def openElse (arm : ElseArm) : Build Unit := do
  emit .openElse
  openFrame .ifArm arm.label arm.results arm.results arm.params

/-- Closes scopes. -/
def closeScopes : Nat → Build Unit
  | 0 => return ()
  | n + 1 => do
    emit .close
    closeScopes n

/-- Ends a construct: leaves its frame, closes its scopes and pushes its results. -/
def endConstruct (inFrame : Bool) (scopes : Nat) (results : Target) : Build Unit := do
  if inFrame then
    fallThrough
    closeFrame
  closeScopes scopes
  pushAllBound results.vars results.types

/-! ### Branches -/

/-- An unconditional branch. -/
def lowerBr (levels : Nat) : Build Unit := do
  let target ← branchTarget levels
  let values ← popAtoms target.types
  branchOut levels values
  markUnreachable

/-- A conditional branch; the values stay on the stack for the other case. -/
def lowerBrIf (levels : Nat) : Build Unit := do
  let cond ← popAtom .i32
  let target ← branchTarget levels
  let values := (← peekAtoms target.types).map Operand.atom
  emit (.openIf cond)
  branchOut levels values
  emit .close

/-- An arm of a branch table: how far it leads, and for which numbers. -/
structure TableArm where
  levels : Nat
  cases : List Nat
  deriving DecidableEq

/-- Adds a number to the arm that leads as far, or to a new last arm. -/
def addCase (levels case : Nat) : List TableArm → List TableArm
  | [] => [{ levels, cases := [case] }]
  | arm :: arms =>
    if arm.levels = levels then { arm with cases := arm.cases ++ [case] } :: arms
    else arm :: addCase levels case arms

/-- One arm for each distance other than the default one, in order of first appearance. -/
def tableArms (targets : List Nat) (default : Nat) : List TableArm :=
  targets.zipIdx.foldl
    (fun arms p => if p.1 = default then arms else addCase p.1 p.2 arms) []

/-- Fails unless every target takes values of these types. -/
def checkTargets (types : List ValType) : List Nat → Build Unit
  | [] => return ()
  | levels :: rest => do
    let target ← branchTarget levels
    if target.types = types then checkTargets types rest
    else throw (.typeMismatch (.tableTargets types target.types))

/-- Writes the arms of a branch table. -/
def lowerArms (values : List Atom) : List TableArm → Build Unit
  | [] => return ()
  | arm :: arms => do
    emit (.openCases arm.cases)
    branchOut arm.levels values
    emit .close
    lowerArms values arms

/-- A branch by an unsigned number; numbers beyond the list take the default. -/
def lowerBrTable (targets : List Nat) (default : Nat) : Build Unit := do
  let selector ← popAtom .i32
  let target ← branchTarget default
  checkTargets target.types targets
  let values ← popAtoms target.types
  emit (.openMatch selector)
  lowerArms values (tableArms targets default)
  emit .openOtherwise
  branchOut default values
  emit .close
  emit .close
  markUnreachable

/-- A branch out of the function. -/
def lowerReturn : Build Unit := do
  lowerBr (← get).depth

/-- A trap. -/
def lowerUnreachable : Build Unit := do
  emit .returnTrap
  markUnreachable

end WasmAot.Lowering
