/-
# Operations that go straight on

Most operations of a builder take operands off, push others and write bindings, assignments and
effects.  They leave the frames as they are except for the operands, and they use no labels.  This
holds in every state of the builder, so it is a property of the operations themselves (`Plain`), and
of those that write nothing at all (`Silent`).
-/
import WasmAot.Proofs.Nesting.Shape
import WasmAot.Proofs.Scoping.Bodies

namespace WasmAot.Lowering

open Code Stateful

/-! ### What an operation adds -/

/-- A frame without its operands. -/
def Frame.outline (frame : Frame) : Frame :=
  { frame with stack := [] }

/-- The frames without their operands, innermost first. -/
def Builder.outlines (b : Builder) : List Frame :=
  b.frames.map Frame.outline

/-- The second builder has these lines more than the first one, in the same frames. -/
structure Emits (b b' : Builder) (lines : List Line) : Prop where
  out : b'.out.toList = b.out.toList ++ lines
  outlines : b'.outlines = b.outlines
  nextLabel : b'.nextLabel = b.nextLabel

namespace Emits

variable {b b' b'' : Builder} {lines lines' : List Line}

lemma refl (b : Builder) : Emits b b [] :=
  ⟨(List.append_nil _).symm, rfl, rfl⟩

lemma trans (h : Emits b b' lines) (h' : Emits b' b'' lines') : Emits b b'' (lines ++ lines') :=
  ⟨by rw [h'.out, h.out, List.append_assoc], h'.outlines.trans h.outlines,
    h'.nextLabel.trans h.nextLabel⟩

lemma wrote (b : Builder) (vars : Nat) (lines : List Line) : Emits b (b.wrote vars lines) lines :=
  ⟨by simp, rfl, rfl⟩

lemma withStack (b : Builder) (stack : List Operand) : Emits b (b.withStack stack) [] :=
  ⟨(List.append_nil _).symm, rfl, rfl⟩

lemma unreachable (h : Emits b b' lines) : b'.current.unreachable = b.current.unreachable := by
  have hcurrent : b'.current.outline = b.current.outline := (List.cons.inj h.outlines).1
  have hflag := congrArg Frame.unreachable hcurrent
  exact hflag

end Emits

/-- The operation writes nothing. -/
def Silent {α : Type} (x : Build α) : Prop :=
  ∀ ⦃b : Builder⦄ ⦃a : α⦄ ⦃b' : Builder⦄, x b = .ok a b' → Emits b b' []

/-- The operation writes bindings, assignments and effects. -/
def Plain {α : Type} (x : Build α) : Prop :=
  ∀ ⦃b : Builder⦄ ⦃a : α⦄ ⦃b' : Builder⦄, x b = .ok a b' →
    ∃ lines, (∀ line ∈ lines, line.Straight) ∧ Emits b b' lines

section

variable {α β : Type} {x : Build α} {f : α → Build β}

lemma Silent.pure (a : α) : Silent (pure a) := by
  intro b _ b' hrun
  cases hrun
  exact .refl b

lemma Silent.throw (e : Error) : Silent (throw e : Build α) := by
  intro b a b' hrun
  cases hrun

lemma Silent.get : Silent get := by
  intro b _ b' hrun
  cases hrun
  exact .refl b

lemma Silent.bind (hx : Silent x) (hf : ∀ a, Silent (f a)) : Silent (x >>= f) := by
  intro b c b'' hrun
  obtain ⟨a, b', hfirst, hsecond⟩ := of_bind_run_ok hrun
  exact (hx hfirst).trans (hf a hsecond)

lemma Silent.plain (hx : Silent x) : Plain x :=
  fun _ _ _ hrun => ⟨[], List.forall_mem_nil _, hx hrun⟩

lemma Plain.bind (hx : Plain x) (hf : ∀ a, Plain (f a)) : Plain (x >>= f) := by
  intro b c b'' hrun
  obtain ⟨a, b', hfirst, hsecond⟩ := of_bind_run_ok hrun
  obtain ⟨lines, hlines, hemits⟩ := hx hfirst
  obtain ⟨lines', hlines', hemits'⟩ := hf a hsecond
  exact ⟨lines ++ lines', List.forall_mem_append.2 ⟨hlines, hlines'⟩, hemits.trans hemits'⟩

lemma Silent.then (hx : Silent x) (hf : ∀ a, Plain (f a)) : Plain (x >>= f) :=
  hx.plain.bind hf

end

/-! ### Operations that write nothing -/

lemma silent_require {α : Type} (x : Except Error α) : Silent (require x) := by
  cases x with
  | ok a => exact .pure a
  | error e => exact .throw e

lemma silent_newVar : Silent newVar := by
  intro b x b' hrun
  cases newVar_run.symm.trans hrun
  exact .wrote b 1 []

lemma silent_pushOperand (op : Operand) : Silent (pushOperand op) := by
  intro b _ b' hrun
  cases hrun
  exact .withStack b _

lemma silent_peekOperands (n : Nat) : Silent (peekOperands n) := by
  intro b ops b' hrun
  obtain ⟨rfl, -⟩ := mem_operands_of_peek hrun
  exact .refl b'

lemma map_outline_dropOperands (n : Nat) (frames : List Frame) :
    (dropOperands n frames).map Frame.outline = frames.map Frame.outline := by
  induction frames generalizing n with
  | nil => rfl
  | cons frame frames ih => rw [dropOperands, List.map_cons, List.map_cons, ih]; rfl

lemma silent_pop (n : Nat) : Silent (pop n) := by
  intro b ops b' hrun
  obtain ⟨rfl, -⟩ := eq_popped_of_pop hrun
  exact ⟨(List.append_nil _).symm, map_outline_dropOperands n b.frames, rfl⟩

lemma silent_expectTypes (expected found : List ValType) : Silent (expectTypes expected found) := by
  unfold expectTypes
  split
  · exact .pure _
  · exact .throw _

lemma silent_topTypes (n : Nat) : Silent (topTypes n) :=
  (silent_peekOperands n).bind fun _ => .pure _

lemma silent_peekAtoms (types : List ValType) : Silent (peekAtoms types) :=
  (silent_peekOperands _).bind fun _ => (silent_expectTypes _ _).bind fun _ => .pure _

lemma silent_popOperandsOf (types : List ValType) : Silent (popOperandsOf types) :=
  (silent_peekAtoms types).bind fun _ => silent_pop _

lemma silent_popAtoms (types : List ValType) : Silent (popAtoms types) :=
  (silent_popOperandsOf types).bind fun _ => .pure _

lemma silent_popAtom (ty : ValType) : Silent (popAtom ty) := by
  refine (silent_popAtoms [ty]).bind fun atoms => ?_
  cases atoms with
  | nil => exact .throw _
  | cons atom atoms => exact .pure atom

lemma silent_popOperand : Silent popOperand := by
  refine (silent_pop 1).bind fun ops => ?_
  cases ops with
  | nil => exact .throw _
  | cons op ops => exact .pure op

lemma silent_popThree : Silent popThree :=
  (silent_popAtom _).bind fun _ => (silent_popAtom _).bind fun _ => (silent_popAtom _).bind fun _ =>
    .pure _

lemma silent_typeOfLocal (index : Nat) : Silent (typeOfLocal index) := by
  refine Silent.get.bind fun b => ?_
  split
  · exact .pure _
  · exact .throw _

lemma silent_getLocal (index : Nat) : Silent (getLocal index) :=
  (silent_typeOfLocal index).bind fun _ => silent_pushOperand _

lemma silent_targetFrame (levels : Nat) : Silent (targetFrame levels) := by
  refine Silent.get.bind fun b => ?_
  split
  · exact .pure _
  · exact .throw _

lemma silent_branchTarget (levels : Nat) : Silent (branchTarget levels) :=
  (silent_targetFrame levels).bind fun _ => .pure _

lemma silent_checkTargets (types : List ValType) (targets : List Nat) :
    Silent (checkTargets types targets) := by
  induction targets with
  | nil => exact .pure _
  | cons levels rest ih =>
    refine (silent_branchTarget levels).bind fun target => ?_
    split
    · exact ih
    · exact .throw _

lemma silent_takeResults (types : List ValType) : Silent (takeResults types) := by
  refine Silent.get.bind fun b => ?_
  dsimp only
  split
  · exact silent_popAtoms types
  · exact (silent_topTypes _).bind fun _ => .throw _

lemma silent_pushAllBound (vars : List Name) (types : List ValType) :
    Silent (pushAllBound vars types) := by
  induction vars generalizing types with
  | nil => exact .pure _
  | cons var vars ih =>
    cases types with
    | nil => exact .pure _
    | cons ty types => exact (silent_pushOperand _).bind fun _ => ih types

lemma silent_push (types : List ValType) : Silent (push types) := by
  induction types with
  | nil => exact .pure _
  | cons ty types ih =>
    exact silent_newVar.bind fun _ => (silent_pushOperand _).bind fun _ => ih.bind fun _ => .pure _

/-! ### Operations that write straight lines -/

lemma plain_emit {line : Line} (h : line.Straight) : Plain (emit line) := by
  intro b _ b' hrun
  cases (emit_run line).symm.trans hrun
  exact ⟨[line], List.forall_mem_singleton.2 h, .wrote b 0 [line]⟩

lemma plain_perform (e : Effect) : Plain (emit (.perform e)) :=
  plain_emit (by trivial)

lemma plain_result (ty : ValType) (value : Expr) : Plain (result ty value) := by
  refine Plain.bind ?_ fun _ => (Silent.pure ()).plain
  exact silent_newVar.then fun _ => (plain_emit (by trivial)).bind fun _ =>
    (silent_pushOperand _).then fun _ => (Silent.pure _).plain

lemma plain_settleOperand (which : Nat → Bool) (op : Operand) : Plain (settleOperand which op) := by
  intro b op' b' hrun
  rw [settleOperand_run] at hrun
  split at hrun
  · cases hrun
    exact ⟨_, List.forall_mem_singleton.2 (by trivial), .wrote b 1 _⟩
  · cases hrun
    exact ⟨[], List.forall_mem_nil _, .refl _⟩

lemma plain_settleStack (which : Nat → Bool) (ops : List Operand) :
    Plain (settleStack which ops) := by
  induction ops with
  | nil => exact (Silent.pure _).plain
  | cons op below ih =>
    exact ih.bind fun _ => (plain_settleOperand which op).bind fun _ => (Silent.pure _).plain

lemma settleFrames_plain {which : Nat → Bool} {frames frames' : List Frame} {b b' : Builder}
    (hrun : settleFrames which frames b = .ok frames' b') :
    frames'.map Frame.outline = frames.map Frame.outline ∧
      ∃ lines, (∀ line ∈ lines, line.Straight) ∧ Emits b b' lines := by
  induction frames generalizing frames' b' with
  | nil =>
    cases hrun
    exact ⟨rfl, [], List.forall_mem_nil _, .refl _⟩
  | cons frame frames ih =>
    obtain ⟨outer, b₁, houter, hrun⟩ := of_bind_run_ok hrun
    obtain ⟨stack, b₂, hstack, hrun⟩ := of_bind_run_ok hrun
    cases hrun
    obtain ⟨houtlines, lines, hlines, hemits⟩ := ih houter
    obtain ⟨lines', hlines', hemits'⟩ := plain_settleStack which frame.stack hstack
    refine ⟨?_, lines ++ lines', List.forall_mem_append.2 ⟨hlines, hlines'⟩, hemits.trans hemits'⟩
    rw [List.map_cons, List.map_cons, houtlines]
    rfl

lemma plain_settle (which : Nat → Bool) : Plain (settle which) := by
  intro b _ b' hrun
  rw [settle, bind_run_ok (get_run b)] at hrun
  obtain ⟨outer, b₁, houter, hrun⟩ := of_bind_run_ok hrun
  obtain ⟨stack, b₂, hstack, hrun⟩ := of_bind_run_ok hrun
  cases hrun
  obtain ⟨houtlines, lines, hlines, hemits⟩ := settleFrames_plain houter
  obtain ⟨lines', hlines', hemits'⟩ := plain_settleStack which b.current.stack hstack
  have hall := hemits.trans hemits'
  refine ⟨lines ++ lines', List.forall_mem_append.2 ⟨hlines, hlines'⟩, hall.out, ?_,
    hall.nextLabel⟩
  have hsame := hall.outlines
  rw [Builder.outlines, Builder.frames, List.map_cons] at hsame ⊢
  rw [Builder.outlines, Builder.frames, List.map_cons, List.cons.injEq] at hsame
  rw [Builder.outlines, Builder.frames, List.map_cons, houtlines, ← hsame.1]
  rfl

lemma plain_setLocal (index : Nat) : Plain (setLocal index) :=
  (silent_typeOfLocal index).then fun _ => (silent_popAtom _).then fun _ =>
    (plain_settle _).bind fun _ => (plain_emit (by trivial)).bind fun _ => (Silent.pure _).plain

lemma plain_assignAll (vars : List Name) (values : List Atom) : Plain (assignAll vars values) := by
  unfold assignAll
  split
  · exact (Silent.pure _).plain
  · exact plain_emit (by trivial)

lemma plain_declareAll (types : List ValType) : Plain (declareAll types) := by
  induction types with
  | nil => exact (Silent.pure _).plain
  | cons ty types ih =>
    exact silent_newVar.then fun _ => (plain_emit (by trivial)).bind fun _ => ih.bind fun _ =>
      (Silent.pure _).plain

lemma plain_declareParams (ops : List Operand) : Plain (declareParams ops) := by
  induction ops with
  | nil => exact (Silent.pure _).plain
  | cons op ops ih =>
    exact silent_newVar.then fun _ => (plain_emit (by trivial)).bind fun _ => ih.bind fun _ =>
      (Silent.pure _).plain

lemma plain_pushResults (results : List ValType) (call : Expr) :
    Plain (pushResults results call) := by
  unfold pushResults
  split
  · exact plain_perform _
  · exact plain_result _ _
  · exact (silent_push _).then fun _ => plain_emit (by trivial)

lemma plain_unpackResults (values : Name) (position : Nat) (results : List ValType) :
    Plain (unpackResults values position results) := by
  induction results generalizing position with
  | nil => exact (Silent.pure _).plain
  | cons ty types ih => exact (plain_result _ _).bind fun _ => ih _

lemma plain_bindDynamicResults (results : List ValType) (call : Expr) :
    Plain (bindDynamicResults results call) := by
  unfold bindDynamicResults
  split
  · exact plain_perform _
  · exact silent_newVar.then fun _ => (plain_emit (by trivial)).bind fun _ =>
      plain_unpackResults _ _ _

lemma plain_lowerCall (m : Module) (func : Nat) : Plain (lowerCall m func) := by
  refine (silent_require _).then fun type => (silent_popAtoms _).then fun args =>
    (silent_require _).then fun refers => ?_
  cases refers with
  | defined => exact plain_pushResults _ _
  | imported => exact plain_bindDynamicResults _ _

lemma plain_lowerCallIndirect (m : Module) (type table : Nat) :
    Plain (lowerCallIndirect m type table) :=
  (silent_require _).then fun _ => (silent_require _).then fun _ => (silent_popAtom _).then fun _ =>
    (silent_popAtoms _).then fun _ => silent_newVar.then fun _ =>
      (plain_emit (by trivial)).bind fun _ => (plain_perform _).bind fun _ => plain_bindDynamicResults _ _

lemma plain_lowerSelect (annotated : Option ValType) : Plain (lowerSelect annotated) := by
  refine (silent_popAtom _).then fun cond => (silent_pop 2).then fun ops => ?_
  split
  · dsimp only
    split
    · exact plain_result _ _
    · exact (Silent.throw _).plain
  · exact (Silent.throw _).plain

/-! ### Instructions that have nothing to do with control -/

/-- The instruction neither branches nor owns other instructions, nor copies between tables. -/
def isPlain : Instr → Bool
  | .unreachable | .block .. | .loop .. | .ifElse .. | .br _ | .brIf _ | .brTable .. | .ret
  | .tableCopy .. => false
  | _ => true

lemma plain_lowerSimple (m : Module) {instr : Instr} (h : isPlain instr = true) :
    Plain (lowerSimple m instr) := by
  -- neither a check nor an operand that is taken off writes anything
  have one (ty : ValType) {f : Atom → Build Unit} (hf : ∀ a, Plain (f a)) :
      Plain (popAtom ty >>= f) := (silent_popAtom ty).then hf
  have three {f : Atom × Atom × Atom → Build Unit} (hf : ∀ p, Plain (f p)) :
      Plain (popThree >>= f) := silent_popThree.then hf
  have checked {α : Type} (x : Except Error α) {f : α → Build Unit} (hf : ∀ a, Plain (f a)) :
      Plain (require x >>= f) := (silent_require x).then hf
  cases instr with
  | unreachable | block | loop | ifElse | br | brIf | brTable | ret | tableCopy => cases h
  | nop => exact (Silent.pure _).plain
  | call func => exact plain_lowerCall m func
  | callIndirect type table => exact plain_lowerCallIndirect m type table
  | refNull ty =>
    rw [lowerSimple, lowerRefNull]
    split
    · exact plain_result _ _
    · exact (Silent.throw _).plain
  | refIsNull =>
    refine silent_popOperand.then fun op => ?_
    split
    · exact plain_result _ _
    · exact (Silent.throw _).plain
  | refFunc func =>
    refine checked _ fun refers => ?_
    cases refers <;> exact plain_result _ _
  | drop => exact silent_popOperand.then fun _ => (Silent.pure _).plain
  | select ty => exact plain_lowerSelect ty
  | localGet index => exact (silent_getLocal index).plain
  | localSet index => exact (plain_setLocal index).bind fun _ => (Silent.pure _).plain
  | localTee index => exact (plain_setLocal index).bind fun _ => (silent_getLocal index).plain
  | globalSet index =>
    refine checked _ fun type => ?_
    split
    · exact one _ fun _ => plain_perform _
    · exact (Silent.throw _).plain
  | globalGet | tableSize | memorySize => exact checked _ fun _ => plain_result _ _
  | tableGet | load | memoryGrow => exact checked _ fun _ => one _ fun _ => plain_result _ _
  | tableGrow => exact checked _ fun _ => one _ fun _ => one _ fun _ => plain_result _ _
  | tableSet | store => exact checked _ fun _ => one _ fun _ => one _ fun _ => plain_perform _
  | tableFill =>
    exact checked _ fun _ => one _ fun _ => one _ fun _ => one _ fun _ => plain_perform _
  | tableInit | memoryInit =>
    exact checked _ fun _ => checked _ fun _ => three fun _ => plain_perform _
  | elemDrop | dataDrop => exact checked _ fun _ => plain_perform _
  | memoryCopy | memoryFill => exact checked _ fun _ => three fun _ => plain_perform _
  | i32Const | i64Const | f32Const | f64Const => exact (silent_pushOperand _).plain
  | compare | binary =>
    exact one _ fun _ => one _ fun _ => checked _ fun _ => plain_result _ _
  | unary => exact one _ fun _ => checked _ fun _ => plain_result _ _
  | convert => exact one _ fun _ => plain_result _ _

end WasmAot.Lowering
