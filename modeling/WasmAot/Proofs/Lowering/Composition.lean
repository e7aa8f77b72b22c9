/-
# Operations in the innermost frame

Instructions that own no others, and what comes before a construct is opened, are put together from
few steps: new variables and labels, lines, operands that are pushed, taken off or bound, and the
mark that what follows is never reached.  No other step changes the builder, and none of them opens
or leaves a construct (`Composed`).  What holds of the steps holds of every such operation, whether
it succeeds or fails, so a property of all of them is proved step by step and not once more for each
operation.  A construct is opened by such an operation with the check of the nesting before it and
the new frame after it (`Opening`).
-/
import WasmAot.Proofs.Nesting.Plain

namespace WasmAot.Lowering

open Code Stateful

/-! ### Steps -/

/-- Where the operand is used, the local is read. -/
def Operand.Mentions (op : Operand) (index : Nat) : Prop :=
  .slot index ∈ op.atom.names

/-- It is known of the operand which local it reads, and it is this read and nothing else. -/
structure Operand.Genuine (op : Operand) : Prop where
  of_reads : ∀ index, op.reads = some index → op = localOperand index op.ty
  of_mentions : ∀ index, op.Mentions index → op.reads = some index

namespace Operand

lemma mentions_localOperand {index other : Nat} {ty : ValType} :
    (localOperand index ty).Mentions other ↔ other = index := by
  unfold Mentions localOperand Operand.atom
  dsimp only
  split <;> simp [Atom.names]

lemma not_mentions_temp (n : Nat) (ty : ValType) (index : Nat) :
    ¬ Operand.Mentions ⟨.bound (.temp n), ty⟩ index := by
  simp [Mentions, names_bound]

namespace Genuine

protected lemma temp (n : Nat) (ty : ValType) : Genuine ⟨.bound (.temp n), ty⟩ :=
  ⟨nofun, fun index hmentions => (not_mentions_temp n ty index hmentions).elim⟩

protected lemma const {atom : Atom} (ty : ValType) (h : atom.names = []) :
    Genuine ⟨.deferred atom none, ty⟩ := by
  refine ⟨nofun, fun index hmentions => ?_⟩
  change _ ∈ atom.names at hmentions
  rw [h] at hmentions
  cases hmentions

protected lemma localOperand (index : Nat) (ty : ValType) :
    (Lowering.localOperand index ty).Genuine where
  of_reads other hreads := by
    cases hreads
    rfl
  of_mentions other hmentions := by
    rw [mentions_localOperand.1 hmentions]
    rfl

end Genuine

end Operand

/-- The error is not that constructs are nested too deeply. -/
def NotDeep (e : Error) : Prop :=
  e ≠ .validation .nestedTooDeeply

/-- The operation is put together from steps in the innermost frame, and from failures for other
reasons than the nesting. -/
inductive Composed : {α : Type} → Build α → Prop
  | pure {α : Type} (a : α) : Composed (pure a : Build α)
  | throw {α : Type} {e : Error} (h : NotDeep e) : Composed (throw e : Build α)
  | get : Composed (get : Build Builder)
  /-- what follows gets a new variable, which is none of the locals -/
  | fresh {α : Type} {f : Name → Build α} (hf : ∀ n, Composed (f (.temp n))) :
      Composed (newVar >>= f)
  | newLabel : Composed newLabel
  | emit (line : Line) : Composed (emit line)
  | pushOperand {op : Operand} (h : op.Genuine) : Composed (pushOperand op)
  | takeOff (n : Nat) : Composed (modify fun b => b.popped n)
  | settle (which : Nat → Bool) : Composed (settle which)
  | markUnreachable : Composed markUnreachable
  | bind {α β : Type} {x : Build α} {f : α → Build β} (hx : Composed x)
      (hf : ∀ a, Composed (f a)) : Composed (x >>= f)

lemma Composed.map {α β : Type} {x : Build α} (hx : Composed x) (g : α → β) :
    Composed (do return g (← x)) :=
  hx.bind fun a => .pure (g a)

/-! ### Look-ups -/

/-- If the look-up fails, it is not because constructs are nested too deeply. -/
def Finds {α : Type} (x : Except Error α) : Prop :=
  ∀ ⦃e : Error⦄, x = .error e → NotDeep e

namespace Finds

variable {α β : Type} {x : Except Error α} {f : α → Except Error β}

protected lemma ok (a : α) : Finds (.ok a) :=
  nofun

protected lemma error {e : Error} (h : NotDeep e) : Finds (.error e : Except Error α) := by
  intro e' heq
  cases heq
  exact h

protected lemma bind (hx : Finds x) (hf : ∀ a, Finds (f a)) : Finds (x >>= f) := by
  cases x with
  | error e => exact .error (hx rfl)
  | ok a => exact hf a

/-- A value, if something is the case. -/
lemma guard {p : Prop} [Decidable p] (a : α) {e : Error} (h : NotDeep e) :
    Finds (if p then .ok a else .error e) := by
  split
  · exact .ok a
  · exact .error h

end Finds

section

variable (m : Module) (index : Nat)

lemma finds_typeAt : Finds (m.typeAt index) := by
  rw [Module.typeAt]
  split
  · exact .ok _
  · exact .error (by simp [NotDeep])

lemma finds_funcAt : Finds (m.funcAt index) := by
  rw [Module.funcAt]
  split
  · exact .ok _
  · dsimp only
    split
    · exact .ok _
    · exact .error nofun

lemma finds_typeOfFunc : Finds (m.typeOfFunc index) := by
  refine Finds.bind ?_ fun type => finds_typeAt m type
  refine (finds_funcAt m index).bind fun refers => ?_
  split
  · split
    · exact .ok _
    · exact .error nofun
  · exact .ok _

lemma finds_typeOfGlobal : Finds (m.typeOfGlobal index) := by
  rw [Module.typeOfGlobal]
  split
  · exact .ok _
  · exact .error nofun

lemma finds_requireMemory : Finds (m.requireMemory index) :=
  .guard _ nofun

lemma finds_requireElemSegment : Finds (m.requireElemSegment index) :=
  .guard _ nofun

lemma finds_requireDataSegment : Finds (m.requireDataSegment index) :=
  .guard _ nofun

lemma finds_requireFuncTable : Finds (m.requireFuncTable index) := by
  have htype : Finds (m.typeOfTable index) := by
    rw [Module.typeOfTable]
    split
    · exact .ok _
    · exact .error nofun
  exact htype.bind fun type => .guard _ nofun

lemma finds_signatureOf (ty : BlockType) : Finds (m.signatureOf ty) := by
  cases ty with
  | empty | value => exact .ok _
  | indexed index => exact finds_typeAt m index

end

/-! ### Results -/

lemma composed_require {α : Type} {x : Except Error α} (h : Finds x) :
    Composed (require x) := by
  cases x with
  | ok a => exact .pure a
  | error e => exact .throw (h rfl)

lemma composed_pushBound (n : Nat) (ty : ValType) : Composed (pushBound (.temp n) ty) :=
  .pushOperand (.temp n ty)

lemma composed_pushAllBound {vars : List Name} (h : ∀ x ∈ vars, ∃ n, x = .temp n)
    (types : List ValType) : Composed (pushAllBound vars types) := by
  induction vars generalizing types with
  | nil => exact .pure _
  | cons var vars ih =>
    obtain ⟨⟨n, rfl⟩, hvars⟩ := List.forall_mem_cons.1 h
    cases types with
    | nil => exact .pure _
    | cons ty types => exact (composed_pushBound n ty).bind fun _ => ih hvars types

lemma composed_push (types : List ValType) : Composed (push types) := by
  induction types with
  | nil => exact .pure _
  | cons ty types ih =>
    exact Composed.fresh fun _ => (composed_pushBound _ _).bind fun _ => ih.map _

lemma composed_result (ty : ValType) (value : Expr) : Composed (result ty value) := by
  refine Composed.bind ?_ fun _ => .pure _
  exact Composed.fresh fun _ => (Composed.emit _).bind fun _ =>
    (composed_pushBound _ _).bind fun _ => .pure _

/-! ### Taking operands off -/

lemma composed_peekOperands (n : Nat) : Composed (peekOperands n) := by
  rw [peekOperands_eq]
  refine Composed.get.bind fun b => ?_
  dsimp only
  split
  · exact .pure _
  · exact .throw nofun

lemma composed_pop (n : Nat) : Composed (pop n) := by
  rw [pop_eq]
  exact (composed_peekOperands n).bind fun _ => (Composed.takeOff n).bind fun _ => .pure _

lemma composed_expectTypes (expected found : List ValType) :
    Composed (expectTypes expected found) := by
  unfold expectTypes
  split
  · exact .pure _
  · exact .throw nofun

lemma composed_peekAtoms (types : List ValType) : Composed (peekAtoms types) :=
  (composed_peekOperands _).bind fun _ => (composed_expectTypes _ _).bind fun _ => .pure _

lemma composed_popOperandsOf (types : List ValType) : Composed (popOperandsOf types) :=
  (composed_peekAtoms types).bind fun _ => composed_pop _

lemma composed_popAtoms (types : List ValType) : Composed (popAtoms types) :=
  (composed_popOperandsOf types).map _

lemma composed_popAtom (ty : ValType) : Composed (popAtom ty) := by
  refine (composed_popAtoms [ty]).bind fun atoms => ?_
  cases atoms with
  | nil => exact .throw nofun
  | cons atom atoms => exact .pure atom

lemma composed_popOperand : Composed popOperand := by
  refine (composed_pop 1).bind fun ops => ?_
  cases ops with
  | nil => exact .throw nofun
  | cons op ops => exact .pure op

lemma composed_popThree : Composed popThree :=
  (composed_popAtom _).bind fun _ => (composed_popAtom _).bind fun _ => (composed_popAtom _).map _

lemma composed_takeResults (types : List ValType) : Composed (takeResults types) := by
  refine Composed.get.bind fun b => ?_
  dsimp only
  split
  · exact composed_popAtoms types
  · exact ((composed_peekOperands _).map _).bind fun _ => .throw nofun

/-! ### Locals -/

lemma composed_typeOfLocal (index : Nat) : Composed (typeOfLocal index) := by
  refine Composed.get.bind fun b => ?_
  split
  · exact .pure _
  · exact .throw nofun

lemma composed_getLocal (index : Nat) : Composed (getLocal index) :=
  (composed_typeOfLocal index).bind fun ty => .pushOperand (.localOperand index ty)

lemma composed_setLocal (index : Nat) : Composed (setLocal index) :=
  (composed_typeOfLocal index).bind fun _ => (composed_popAtom _).bind fun _ =>
    (Composed.settle _).bind fun _ => (Composed.emit _).bind fun _ => .pure _

/-! ### Structured control -/

lemma composed_assignAll (vars : List Name) (values : List Atom) :
    Composed (assignAll vars values) := by
  unfold assignAll
  split
  · exact .pure _
  · exact .emit _

lemma composed_targetFrame (levels : Nat) : Composed (targetFrame levels) := by
  refine Composed.get.bind fun b => ?_
  split
  · exact .pure _
  · exact .throw nofun

lemma composed_branchTarget (levels : Nat) : Composed (branchTarget levels) :=
  (composed_targetFrame levels).map _

lemma composed_branchOut (levels : Nat) (values : List Atom) :
    Composed (branchOut levels values) := by
  refine (composed_targetFrame levels).bind fun frame => ?_
  split
  · split
    · exact .emit _
    · exact (composed_assignAll _ _).bind fun _ => .emit _
    · exact (composed_assignAll _ _).bind fun _ => .emit _
    · exact (composed_assignAll _ _).bind fun _ => .emit _
  · exact .throw nofun

lemma composed_declareAll (types : List ValType) : Composed (declareAll types) := by
  induction types with
  | nil => exact .pure _
  | cons ty types ih =>
    exact Composed.fresh fun _ => (Composed.emit _).bind fun _ => ih.map _

lemma composed_declareParams (ops : List Operand) : Composed (declareParams ops) := by
  induction ops with
  | nil => exact .pure _
  | cons op ops ih =>
    exact Composed.fresh fun _ => (Composed.emit _).bind fun _ => ih.map _

lemma composed_fallThrough : Composed fallThrough := by
  refine Composed.get.bind fun b => ?_
  dsimp only
  split
  · exact .pure _
  · refine (composed_takeResults _).bind fun _ => (composed_assignAll _ _).bind fun _ => ?_
    split
    · exact .emit _
    · exact .pure _

lemma composed_closeScopes (n : Nat) : Composed (closeScopes n) := by
  induction n with
  | zero => exact .pure _
  | succ n ih => exact (Composed.emit _).bind fun _ => ih

lemma composed_checkTargets (types : List ValType) (targets : List Nat) :
    Composed (checkTargets types targets) := by
  induction targets with
  | nil => exact .pure _
  | cons levels rest ih =>
    refine (composed_branchTarget levels).bind fun target => ?_
    split
    · exact ih
    · exact .throw nofun

lemma composed_lowerArms (values : List Atom) (arms : List TableArm) :
    Composed (lowerArms values arms) := by
  induction arms with
  | nil => exact .pure _
  | cons arm arms ih =>
    exact (Composed.emit _).bind fun _ => (composed_branchOut _ _).bind fun _ =>
      (Composed.emit _).bind fun _ => ih

lemma composed_lowerBr (levels : Nat) : Composed (lowerBr levels) :=
  (composed_branchTarget levels).bind fun _ => (composed_popAtoms _).bind fun _ =>
    (composed_branchOut _ _).bind fun _ => .markUnreachable

lemma composed_lowerBrIf (levels : Nat) : Composed (lowerBrIf levels) :=
  (composed_popAtom _).bind fun _ => (composed_branchTarget levels).bind fun _ =>
    (composed_peekAtoms _).bind fun _ => (Composed.emit _).bind fun _ =>
      (composed_branchOut _ _).bind fun _ => .emit _

lemma composed_lowerBrTable (targets : List Nat) (default : Nat) :
    Composed (lowerBrTable targets default) :=
  (composed_popAtom _).bind fun _ => (composed_branchTarget _).bind fun _ =>
    (composed_checkTargets _ _).bind fun _ => (composed_popAtoms _).bind fun _ =>
      (Composed.emit _).bind fun _ => (composed_lowerArms _ _).bind fun _ =>
        (Composed.emit _).bind fun _ => (composed_branchOut _ _).bind fun _ =>
          (Composed.emit _).bind fun _ => (Composed.emit _).bind fun _ => .markUnreachable

lemma composed_endFunction : Composed endFunction := by
  refine Composed.get.bind fun b => ?_
  split
  · exact .pure _
  · exact (composed_takeResults _).bind fun _ => composed_branchOut _ _

/-! ### Instructions that own no others -/

lemma composed_bindDynamicResults (results : List ValType) (call : Expr) :
    Composed (bindDynamicResults results call) := by
  have hunpack (values : Name) (position : Nat) :
      Composed (unpackResults values position results) := by
    induction results generalizing position with
    | nil => exact .pure _
    | cons ty types ih => exact (composed_result _ _).bind fun _ => ih _
  unfold bindDynamicResults
  split
  · exact .emit _
  · exact Composed.fresh fun _ => (Composed.emit _).bind fun _ => hunpack _ _

lemma composed_lowerCall (m : Module) (func : Nat) : Composed (lowerCall m func) := by
  refine (composed_require (finds_typeOfFunc m func)).bind fun type =>
    (composed_popAtoms _).bind fun args =>
      (composed_require (finds_funcAt m func)).bind fun refers => ?_
  cases refers with
  | imported => exact composed_bindDynamicResults _ _
  | defined =>
    dsimp only
    unfold pushResults
    split
    · exact .emit _
    · exact composed_result _ _
    · exact (composed_push _).bind fun _ => .emit _

lemma composed_lowerCallIndirect (m : Module) (type table : Nat) :
    Composed (lowerCallIndirect m type table) :=
  (composed_require (finds_typeAt m type)).bind fun _ =>
    (composed_require (finds_requireFuncTable m table)).bind fun _ =>
      (composed_popAtom _).bind fun _ => (composed_popAtoms _).bind fun _ =>
        Composed.fresh fun _ => (Composed.emit _).bind fun _ =>
          (Composed.emit _).bind fun _ => composed_bindDynamicResults _ _

lemma composed_lowerSelect (annotated : Option ValType) : Composed (lowerSelect annotated) := by
  refine (composed_popAtom _).bind fun cond => (composed_pop 2).bind fun ops => ?_
  split
  · dsimp only
    split
    · exact composed_result _ _
    · exact .throw nofun
  · exact .throw nofun

lemma composed_lowerTableCopy (m : Module) (dst src : Nat) :
    Composed (lowerTableCopy m dst src) := by
  refine (composed_require (finds_requireFuncTable m dst)).bind fun _ =>
    (composed_require (finds_requireFuncTable m src)).bind fun _ =>
      composed_popThree.bind fun _ => ?_
  dsimp only
  split
  · exact .emit _
  · exact (Composed.emit _).bind fun _ => (Composed.emit _).bind fun _ =>
      (Composed.emit _).bind fun _ => (Composed.emit _).bind fun _ => .emit _

/-- An instruction that owns no others works in the innermost frame. -/
lemma composed_lowerSimple (m : Module) (instr : Instr) : Composed (lowerSimple m instr) := by
  -- the shape of most instructions: indices are checked, and operands are taken off
  have one (ty : ValType) {f : Atom → Build Unit} (hf : ∀ a, Composed (f a)) :
      Composed (popAtom ty >>= f) := (composed_popAtom ty).bind hf
  have three {f : Atom × Atom × Atom → Build Unit} (hf : ∀ p, Composed (f p)) :
      Composed (popThree >>= f) := composed_popThree.bind hf
  have checked {α : Type} {x : Except Error α} (hx : Finds x) {f : α → Build Unit}
      (hf : ∀ a, Composed (f a)) : Composed (require x >>= f) :=
    (composed_require hx).bind hf
  cases instr with
  | nop | block | loop | ifElse => exact .pure _
  | unreachable => exact (Composed.emit _).bind fun _ => .markUnreachable
  | br levels => exact composed_lowerBr levels
  | brIf levels => exact composed_lowerBrIf levels
  | brTable targets default => exact composed_lowerBrTable targets default
  | ret => exact Composed.get.bind fun _ => composed_lowerBr _
  | call func => exact composed_lowerCall m func
  | callIndirect type table => exact composed_lowerCallIndirect m type table
  | refNull ty =>
    rw [lowerSimple, lowerRefNull]
    split
    · exact composed_result _ _
    · exact .throw (by simp [NotDeep])
  | refIsNull =>
    refine composed_popOperand.bind fun op => ?_
    split
    · exact composed_result _ _
    · exact .throw (by simp [NotDeep])
  | refFunc func =>
    refine checked (finds_funcAt m func) fun refers => ?_
    cases refers <;> exact composed_result _ _
  | drop => exact composed_popOperand.bind fun _ => .pure _
  | select ty => exact composed_lowerSelect ty
  | localGet index => exact composed_getLocal index
  | localSet index => exact (composed_setLocal index).bind fun _ => .pure _
  | localTee index => exact (composed_setLocal index).bind fun _ => composed_getLocal index
  | globalGet index => exact checked (finds_typeOfGlobal m index) fun _ => composed_result _ _
  | globalSet index =>
    refine checked (finds_typeOfGlobal m index) fun type => ?_
    split
    · exact one _ fun _ => .emit _
    · exact .throw (by simp [NotDeep])
  | tableGet table =>
    exact checked (finds_requireFuncTable m table) fun _ => one _ fun _ => composed_result _ _
  | tableSize table => exact checked (finds_requireFuncTable m table) fun _ => composed_result _ _
  | tableGrow table =>
    exact checked (finds_requireFuncTable m table) fun _ => one _ fun _ => one _ fun _ =>
      composed_result _ _
  | tableSet table =>
    exact checked (finds_requireFuncTable m table) fun _ => one _ fun _ => one _ fun _ =>
      .emit _
  | tableFill table =>
    exact checked (finds_requireFuncTable m table) fun _ => one _ fun _ => one _ fun _ =>
      one _ fun _ => .emit _
  | tableCopy dst src => exact composed_lowerTableCopy m dst src
  | tableInit segment table =>
    exact checked (finds_requireFuncTable m table) fun _ =>
      checked (finds_requireElemSegment m segment) fun _ => three fun _ => .emit _
  | elemDrop segment => exact checked (finds_requireElemSegment m segment) fun _ => .emit _
  | load => exact checked (finds_requireMemory m 0) fun _ => one _ fun _ => composed_result _ _
  | store =>
    exact checked (finds_requireMemory m 0) fun _ => one _ fun _ => one _ fun _ => .emit _
  | memorySize => exact checked (finds_requireMemory m 0) fun _ => composed_result _ _
  | memoryGrow =>
    exact checked (finds_requireMemory m 0) fun _ => one _ fun _ => composed_result _ _
  | memoryInit segment =>
    exact checked (finds_requireMemory m 0) fun _ =>
      checked (finds_requireDataSegment m segment) fun _ => three fun _ => .emit _
  | dataDrop segment => exact checked (finds_requireDataSegment m segment) fun _ => .emit _
  | memoryCopy | memoryFill =>
    exact checked (finds_requireMemory m 0) fun _ => three fun _ => .emit _
  | i32Const | i64Const | f32Const | f64Const => exact .pushOperand (.const _ rfl)
  | compare ty op =>
    have hexpr (a b : Atom) : Finds (compareExpr ty op a b) := .guard _ (by simp [NotDeep])
    exact one _ fun _ => one _ fun _ => checked (hexpr _ _) fun _ => composed_result _ _
  | binary ty op =>
    have hexpr (a b : Atom) : Finds (binaryExpr ty op a b) := .guard _ (by simp [NotDeep])
    exact one _ fun _ => one _ fun _ => checked (hexpr _ _) fun _ => composed_result _ _
  | unary ty op =>
    have hexpr (a : Atom) : Finds (unaryExpr ty op a) := .guard _ (by simp [NotDeep])
    exact one _ fun _ => checked (hexpr _) fun _ => composed_result _ _
  | convert => exact one _ fun _ => composed_result _ _

/-! ### Opening a construct -/

/-- The operation works in the innermost frame and then, at its very end, enters a construct. -/
inductive Entering : {α : Type} → Build α → Prop
  | enter {α : Type} (kind : FrameKind) (label : Label) (branch results : Target)
      (params : List Operand) (a : α) :
      Entering (do openFrame kind label branch results params; return a)
  | refuse {α : Type} {e : Error} (h : NotDeep e) : Entering (throw e : Build α)
  | after {α β : Type} {x : Build α} {f : α → Build β} (hx : Composed x)
      (hf : ∀ a, Entering (f a)) : Entering (x >>= f)

/-- The operation checks the nesting and enters a construct. -/
def Opening {α : Type} (x : Build α) : Prop :=
  ∃ f : Unit → Build α, x = limitNesting >>= f ∧ Entering (f ())

section

variable (m : Module) (ty : BlockType)

lemma opening_block : Opening (openBlock m ty) := by
  refine ⟨_, rfl, .after (composed_require (finds_signatureOf m ty)) fun sig => ?_⟩
  exact .after (.settle _) fun _ => .after (composed_popOperandsOf _) fun params =>
    .after (composed_declareAll _) fun vars => .after .newLabel fun label =>
      .after (.emit _) fun _ => .enter ..

lemma opening_loop : Opening (openLoop m ty) := by
  refine ⟨_, rfl, .after (composed_require (finds_signatureOf m ty)) fun sig => ?_⟩
  exact .after (.settle _) fun _ => .after (composed_popOperandsOf _) fun incoming =>
    .after (composed_declareAll _) fun vars => .after (composed_declareParams _) fun params =>
      .after .newLabel fun label => .after (.emit _) fun _ => .enter ..

lemma opening_if (hasElse : Bool) : Opening (openIf m ty hasElse) := by
  refine ⟨_, rfl, .after (composed_require (finds_signatureOf m ty)) fun sig => ?_⟩
  split
  · exact .refuse nofun
  · exact .after (composed_popAtom _) fun cond => .after (.settle _) fun _ =>
      .after (composed_popOperandsOf _) fun params => .after (composed_declareAll _) fun vars =>
        .after .newLabel fun label => .after (.emit _) fun _ => .after (.emit _) fun _ =>
          .enter ..

end

end WasmAot.Lowering
