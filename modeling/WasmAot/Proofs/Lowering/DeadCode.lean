/-
# Dead code

What stands behind an unconditional transfer in its sequence is never reached, and it is not looked
at either: it may be replaced by anything, well-formed or not, and the function is lowered to the
same method or refused with the same error.

The sequence may be anywhere in the body of the function.  The place is a body with a hole (`Hole`)
in which a sequence of instructions is missing.
-/
import WasmAot.Proofs.Lowering.Descent

namespace WasmAot

/-- A body in which one sequence is missing: the body itself, or the sequence of a construct at any
depth. -/
inductive Hole where
  | here
  | block (before : List Instr) (ty : BlockType) (inner : Hole) (after : List Instr)
  | loop (before : List Instr) (ty : BlockType) (inner : Hole) (after : List Instr)
  | thenArm (before : List Instr) (ty : BlockType) (inner : Hole) (elseBody after : List Instr)
  | elseArm (before : List Instr) (ty : BlockType) (thenBody : List Instr) (inner : Hole)
      (after : List Instr)

/-- The body with a sequence in the place of the hole. -/
def Hole.fill (instrs : List Instr) : Hole → List Instr
  | here => instrs
  | block before ty inner after => before ++ .block ty (inner.fill instrs) :: after
  | loop before ty inner after => before ++ .loop ty (inner.fill instrs) :: after
  | thenArm before ty inner elseBody after =>
    before ++ .ifElse ty (inner.fill instrs) elseBody :: after
  | elseArm before ty thenBody inner after =>
    before ++ .ifElse ty thenBody (inner.fill instrs) :: after

lemma Hole.isEmpty_fill {instrs : List Instr} (h : instrs.isEmpty = false) (hole : Hole) :
    (hole.fill instrs).isEmpty = false := by
  cases hole <;> simp [fill, h]

/-! ### Other bodies -/

/-- A reference to a function, if one of the functions has another body. -/
def FuncRefers.withBody (position : Nat) (body : List Instr) : FuncRefers → FuncRefers
  | imported place item => imported place item
  | defined place func => defined place (if position = place then { func with body } else func)

namespace Module

/-- The module with another body for one of its functions, by its position among them. -/
def withBody (m : Module) (position : Nat) (body : List Instr) : Module :=
  { m with functions := m.functions.modify position fun func => { func with body } }

variable (m : Module) (position : Nat) (body : List Instr) (index : Nat)

lemma functions_withBody {func : FuncDef} (h : m.functions[position]? = some func) :
    (m.withBody position body).functions[position]? = some { func with body } := by
  rw [withBody, List.getElem?_modify_eq, h]
  rfl

lemma funcAt_withBody :
    (m.withBody position body).funcAt index =
      (m.funcAt index).map (FuncRefers.withBody position body) := by
  have himports : (m.withBody position body).importsOf .func = m.importsOf .func := rfl
  have hcount : (m.withBody position body).importCount .func = m.importCount .func := rfl
  simp only [funcAt, himports, hcount]
  cases (m.importsOf .func)[index]? with
  | some p => rfl
  | none =>
    dsimp only
    rw [withBody, List.getElem?_modify]
    cases m.functions[index - m.importCount .func]? <;> rfl

lemma typeOfFunc_withBody : (m.withBody position body).typeOfFunc index = m.typeOfFunc index := by
  have htype : (m.withBody position body).typeIndexOfFunc index = m.typeIndexOfFunc index := by
    rw [typeIndexOfFunc, typeIndexOfFunc, funcAt_withBody]
    cases m.funcAt index with
    | error e => rfl
    | ok refers =>
      cases refers with
      | imported place item => rfl
      | defined place func =>
        change Except.ok (if position = place then { func with body } else func).type = _
        split <;> rfl
  rw [typeOfFunc, typeOfFunc, htype]
  rfl

end Module

namespace Lowering

section

variable (m : Module) (position : Nat) (body : List Instr)

lemma lowerCall_withBody (func : Nat) :
    lowerCall (m.withBody position body) func = lowerCall m func := by
  rw [lowerCall, lowerCall, Module.typeOfFunc_withBody, Module.funcAt_withBody]
  congr 1
  funext type
  congr 1
  funext args
  cases m.funcAt func with
  | error e => rfl
  | ok refers => cases refers <;> rfl

lemma lowerRefFunc_withBody (func : Nat) :
    lowerRefFunc (m.withBody position body) func = lowerRefFunc m func := by
  rw [lowerRefFunc, lowerRefFunc, Module.funcAt_withBody]
  cases m.funcAt func with
  | error e => rfl
  | ok refers => cases refers <;> rfl

lemma lowerSimple_withBody (instr : Instr) :
    lowerSimple (m.withBody position body) instr = lowerSimple m instr := by
  cases instr with
  | call func => exact lowerCall_withBody m position body func
  | refFunc func => exact lowerRefFunc_withBody m position body func
  | _ => rfl

end

mutual

/-- Lowering an instruction does not look at the bodies of the functions of the module. -/
lemma instr_withBody (m : Module) (position : Nat) (body : List Instr) (instr : Instr) :
    Descent.instr (m.withBody position body) instr = Descent.instr m instr := by
  have hblock : openBlock (m.withBody position body) = openBlock m := rfl
  have hloop : openLoop (m.withBody position body) = openLoop m := rfl
  have hif : openIf (m.withBody position body) = openIf m := rfl
  cases instr with
  | block ty inner | loop ty inner =>
    simp only [Descent.instr, hblock, hloop, seq_withBody m position body inner]
  | ifElse ty thenBody elseBody =>
    simp only [Descent.instr, hif, seq_withBody m position body thenBody,
      seq_withBody m position body elseBody]
  | _ => simp only [Descent.instr, lowerSimple_withBody]

lemma seq_withBody (m : Module) (position : Nat) (body : List Instr) (instrs : List Instr) :
    Descent.seq (m.withBody position body) instrs = Descent.seq m instrs := by
  cases instrs with
  | nil => rw [Descent.seq, Descent.seq]
  | cons instr rest =>
    rw [Descent.seq, Descent.seq, instr_withBody m position body instr,
      seq_withBody m position body rest]

end

/-! ### Sequences in a hole -/

section

variable {m : Module} {instrs instrs' : List Instr}

lemma seq_append_congr (before : List Instr) (h : Descent.seq m instrs = Descent.seq m instrs') :
    Descent.seq m (before ++ instrs) = Descent.seq m (before ++ instrs') := by
  induction before with
  | nil => exact h
  | cons instr before ih => rw [List.cons_append, List.cons_append, Descent.seq, Descent.seq, ih]

/-- A body with a hole makes no difference between sequences that are lowered in the same way. -/
lemma seq_fill_congr (hole : Hole) (h : Descent.seq m instrs = Descent.seq m instrs')
    (hempty : instrs.isEmpty = false) (hempty' : instrs'.isEmpty = false) :
    Descent.seq m (hole.fill instrs) = Descent.seq m (hole.fill instrs') := by
  induction hole with
  | here => exact h
  | block before ty inner after ih | loop before ty inner after ih =>
    refine seq_append_congr before ?_
    simp only [Descent.seq, Descent.instr, ih]
    rfl
  | thenArm before ty inner elseBody after ih =>
    refine seq_append_congr before ?_
    simp only [Descent.seq, Descent.instr, ih]
    rfl
  | elseArm before ty thenBody inner after ih =>
    -- that the second arm is there does not depend on what is in the hole
    refine seq_append_congr before ?_
    simp only [Descent.seq, Descent.instr, ih, needsElse, inner.isEmpty_fill hempty,
      inner.isEmpty_fill hempty']
    rfl

/-- A sequence ends with its first transfer. -/
lemma seq_transfer {cut : Instr} (hcut : cut.isTransfer = true) (before dead dead' : List Instr) :
    Descent.seq m (before ++ cut :: dead) = Descent.seq m (before ++ cut :: dead') := by
  refine seq_append_congr before ?_
  rw [Descent.seq, Descent.seq, if_pos hcut, if_pos hcut]

end

/-- What stands behind a transfer, in any sequence of the body of a function, has no influence on
what the function is lowered to, nor on the error that it is refused with. -/
theorem lowerFunction_deadCode {m : Module} {position : Nat} {func : FuncDef} {hole : Hole}
    {before dead : List Instr} {cut : Instr} (hfunc : m.functions[position]? = some func)
    (hbody : func.body = hole.fill (before ++ cut :: dead)) (hcut : cut.isTransfer = true)
    (dead' : List Instr) :
    lowerFunction (m.withBody position (hole.fill (before ++ cut :: dead'))) position =
      lowerFunction m position := by
  have hseq : Descent.seq m (hole.fill (before ++ cut :: dead')) = Descent.seq m func.body := by
    rw [hbody]
    exact seq_fill_congr hole (seq_transfer hcut before dead' dead) (by simp) (by simp)
  have hlower : lowerBody (m.withBody position (hole.fill (before ++ cut :: dead')))
      (hole.fill (before ++ cut :: dead')) = lowerBody m func.body := by
    rw [lowerBody_eq_body, lowerBody_eq_body, Descent.body, Descent.body, seq_withBody, hseq]
  unfold lowerFunction
  rw [m.functions_withBody position _ hfunc, hfunc]
  dsimp only
  rw [hlower]
  rfl

/-- Blocks inside of each other. -/
def deepBlocks : Nat → List Instr
  | 0 => []
  | n + 1 => [.block .empty (deepBlocks n)]

/-- A block with a result, the body of a loop inside of it being missing. -/
def loopHole : Hole :=
  .block [] (.value .i32) (.loop [] .empty .here [.i32Const 2]) []

/-- Leaves the loop with a value.  Behind the branch there are no operands, functions and locals for
the instructions to use. -/
def earlyExit : FuncDef where
  type := 0
  locals := []
  body := loopHole.fill ([Instr.i32Const 1] ++ .br 1 :: [.drop, .call 99, .localGet 7])

/-- The module of this one function. -/
def earlyModule : Module :=
  { types := [{ params := [], results := [.i32] }], functions := [earlyExit] }

def earlyMethod : Method where
  index := 0
  type := { params := [], results := [.i32] }
  body :=
    [.bind true (.temp 0) .i32 (.zero .i32), .openBlock (.numbered 0), .openLoop (.numbered 1),
      .assign [.temp 0] [.i32 1], .breakTo (.numbered 0), .close,
      .assign [.temp 0] [.i32 2], .close, .returnOk [.name (.temp 0)]]

/-- Blocks nested too deeply are of no account either. -/
theorem lowerFunction_deadCode_earlyExit :
    lowerFunction earlyModule 0 = .ok earlyMethod ∧
      lowerFunction
          (earlyModule.withBody 0 (loopHole.fill ([Instr.i32Const 1] ++ .br 1 :: deepBlocks 600))) 0 =
        .ok earlyMethod := by
  have hmethod : lowerFunction earlyModule 0 = .ok earlyMethod := by
    decide +kernel
  have hfunc : earlyModule.functions[0]? = some earlyExit := rfl
  refine ⟨hmethod, ?_⟩
  rw [lowerFunction_deadCode hfunc rfl rfl, hmethod]

end Lowering

end WasmAot
