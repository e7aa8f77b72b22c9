/-
# References in methods

Every index in an instruction is checked before a line with it is written, and every variable and
label that a body uses has been made by the builder.  So the lines of a method are genuine, and the
unit declares all that they refer to.  The builder keeps this of the lines that it has written, of
the operands on its stack and of the targets of its frames (`Builder.Genuine`).  `Yields` says of an
operation that it keeps the invariant and what it gives.
-/
import WasmAot.Proofs.Naming.Declarations
import WasmAot.Proofs.Scoping.Bodies

namespace WasmAot.Lowering

open Code Stateful

/-! ### The invariant -/

/-- The line is genuine, and the unit for the module declares all that it refers to. -/
def Resolved (m : Module) (line : Line) : Prop :=
  line.Genuine ∧ ∀ r ∈ line.refs, m.Declares r

/-- The variables of the target are numbered. -/
def Target.Genuine (target : Target) : Prop :=
  ∀ x ∈ target.vars, x.Genuine

/-- The operands are literals and numbered variables. -/
def GenuineOperands (ops : List Operand) : Prop :=
  ∀ op ∈ ops, op.atom.Genuine

structure Frame.Genuine (frame : Frame) : Prop where
  label : frame.label.Genuine
  branch : frame.branch.Genuine
  results : frame.results.Genuine
  stack : GenuineOperands frame.stack

/-- All that a builder holds is genuine, and what it has written refers to nothing undeclared. -/
structure Builder.Genuine (m : Module) (b : Builder) : Prop where
  current : b.current.Genuine
  enclosing : ∀ frame ∈ b.enclosing, frame.Genuine
  out : ∀ line ∈ b.out.toList, Resolved m line

section

variable {m : Module} {b : Builder}

lemma Builder.Genuine.frames (h : b.Genuine m) : ∀ frame ∈ b.frames, frame.Genuine :=
  List.forall_mem_cons.2 ⟨h.current, h.enclosing⟩

lemma Builder.Genuine.operands (h : b.Genuine m) : GenuineOperands b.operands := by
  intro op hop
  obtain ⟨frame, hframe, hop⟩ := List.mem_flatMap.1 hop
  exact (h.frames frame hframe).stack op hop

lemma Builder.Genuine.withStack (h : b.Genuine m) {stack : List Operand}
    (hstack : GenuineOperands stack) : (b.withStack stack).Genuine m :=
  ⟨⟨h.current.label, h.current.branch, h.current.results, hstack⟩, h.enclosing, h.out⟩

lemma Builder.Genuine.wrote (h : b.Genuine m) (vars : Nat) {lines : List Line}
    (hlines : ∀ line ∈ lines, Resolved m line) : (b.wrote vars lines).Genuine m := by
  refine ⟨h.current, h.enclosing, fun line hline => ?_⟩
  rw [Builder.wrote_out, Array.toList_append, List.mem_append] at hline
  exact hline.elim (h.out line) (hlines line)

lemma genuine_bound {x : Name} (h : x.Genuine) (ty : ValType) :
    (Operand.atom ⟨.bound x, ty⟩).Genuine := by
  unfold Operand.atom
  dsimp only
  split <;> exact h

lemma genuine_of_bound {x : Name} {ty : ValType} (h : (Operand.atom ⟨.bound x, ty⟩).Genuine) :
    x.Genuine := by
  unfold Operand.atom at h
  dsimp only at h
  split at h <;> exact h

end

/-! ### Operations -/

/-- From a genuine builder the operation leads to a genuine one, and to a value of this kind. -/
def Yields {α : Type} (m : Module) (x : Build α) (Q : α → Prop) : Prop :=
  ∀ ⦃b : Builder⦄ ⦃a : α⦄ ⦃b' : Builder⦄, b.Genuine m → x b = .ok a b' → b'.Genuine m ∧ Q a

/-- The operation leads from a genuine builder to a genuine one. -/
abbrev Proper {α : Type} (m : Module) (x : Build α) : Prop :=
  Yields m x fun _ => True

section

variable {m : Module} {α β : Type} {x : Build α} {f : α → Build β} {Q : α → Prop} {R : β → Prop}

lemma Yields.pure {a : α} (h : Q a) : Yields m (pure a) Q := by
  intro b _ b' hb hrun
  cases hrun
  exact ⟨hb, h⟩

lemma Yields.throw (e : Error) : Yields m (throw e : Build α) Q := by
  intro b a b' _ hrun
  cases hrun

lemma Yields.get : Yields m get (Builder.Genuine m) := by
  intro b _ b' hb hrun
  cases hrun
  exact ⟨hb, hb⟩

lemma Yields.bind (hx : Yields m x Q) (hf : ∀ a, Q a → Yields m (f a) R) :
    Yields m (x >>= f) R := by
  intro b c b'' hb hrun
  obtain ⟨a, b', hfirst, hsecond⟩ := of_bind_run_ok hrun
  obtain ⟨hb', ha⟩ := hx hb hfirst
  exact hf a ha hb' hsecond

lemma yields_require (x : Except Error α) : Yields m (require x) fun a => x = .ok a := by
  cases x with
  | ok a => exact .pure rfl
  | error e => exact .throw e

/-- An operation with a value of no interest behind it. -/
lemma Yields.discard (hx : Yields m x Q) : Proper m (do let _ ← x) :=
  hx.bind fun _ _ => .pure trivial

end

section

variable {m : Module}

/-! ### Operands and variables -/

lemma yields_newVar : Yields m newVar Name.Genuine := by
  intro b x b' hb hrun
  cases newVar_run.symm.trans hrun
  exact ⟨hb.wrote 1 (List.forall_mem_nil _), trivial⟩

lemma yields_newLabel : Yields m newLabel Label.Genuine := by
  intro b label b' hb hrun
  cases newLabel_run.symm.trans hrun
  exact ⟨⟨hb.current, hb.enclosing, hb.out⟩, trivial⟩

lemma proper_emit {line : Line} (h : Resolved m line) : Proper m (emit line) := by
  intro b _ b' hb hrun
  cases (emit_run line).symm.trans hrun
  exact ⟨hb.wrote 0 (List.forall_mem_singleton.2 h), trivial⟩

/-- A line that is written before something else. -/
lemma emit_then {β : Type} {line : Line} {f : Unit → Build β} {R : β → Prop} (h : Resolved m line)
    (hf : Yields m (f ()) R) : Yields m (emit line >>= f) R :=
  (proper_emit h).bind fun _ _ => hf

lemma proper_pushOperand {op : Operand} (h : op.atom.Genuine) : Proper m (pushOperand op) := by
  intro b _ b' hb hrun
  cases hrun
  exact ⟨hb.withStack (List.forall_mem_cons.2 ⟨h, hb.current.stack⟩), trivial⟩

lemma proper_pushBound {x : Name} (h : x.Genuine) (ty : ValType) : Proper m (pushBound x ty) :=
  proper_pushOperand (genuine_bound h ty)

lemma proper_pushAllBound {vars : List Name} (h : ∀ x ∈ vars, x.Genuine) (types : List ValType) :
    Proper m (pushAllBound vars types) := by
  induction vars generalizing types with
  | nil => exact .pure trivial
  | cons x vars ih =>
    obtain ⟨hx, hvars⟩ := List.forall_mem_cons.1 h
    cases types with
    | nil => exact .pure trivial
    | cons ty types => exact (proper_pushBound hx ty).bind fun _ _ => ih hvars types

lemma yields_push (types : List ValType) :
    Yields m (push types) fun vars => ∀ x ∈ vars, x.Genuine := by
  induction types with
  | nil => exact .pure (List.forall_mem_nil _)
  | cons ty types ih =>
    exact yields_newVar.bind fun x hx => (proper_pushBound hx ty).bind fun _ _ =>
      ih.bind fun vars hvars => .pure (List.forall_mem_cons.2 ⟨hx, hvars⟩)

lemma proper_result (ty : ValType) {e : Expr} (h : e.Genuine) (hrefs : ∀ r ∈ e.refs, m.Declares r) :
    Proper m (result ty e) := by
  refine Yields.discard (Q := fun _ => True) ?_
  exact yields_newVar.bind fun x hx => emit_then ⟨⟨hx, h⟩, hrefs⟩ <|
    (proper_pushBound hx ty).bind fun _ _ => .pure trivial

lemma yields_peekOperands (n : Nat) : Yields m (peekOperands n) GenuineOperands := by
  intro b ops b' hb hrun
  obtain ⟨rfl, hops⟩ := mem_operands_of_peek hrun
  exact ⟨hb, fun op hop => hb.operands op (hops op hop)⟩

lemma genuine_dropOperands {frames : List Frame} (h : ∀ frame ∈ frames, frame.Genuine) (n : Nat) :
    ∀ frame ∈ dropOperands n frames, frame.Genuine := by
  induction frames generalizing n with
  | nil => exact h
  | cons frame frames ih =>
    obtain ⟨hframe, hframes⟩ := List.forall_mem_cons.1 h
    refine List.forall_mem_cons.2 ⟨?_, ih hframes _⟩
    exact ⟨hframe.label, hframe.branch, hframe.results,
      fun op hop => hframe.stack op (List.mem_of_mem_drop hop)⟩

lemma yields_pop (n : Nat) : Yields m (pop n) GenuineOperands := by
  intro b ops b' hb hrun
  obtain ⟨rfl, hops⟩ := eq_popped_of_pop hrun
  have hframes := genuine_dropOperands hb.frames n
  obtain ⟨hcurrent, henclosing⟩ := List.forall_mem_cons.1 hframes
  exact ⟨⟨hcurrent, henclosing, hb.out⟩, fun op hop => hb.operands op (hops op hop)⟩

lemma proper_expectTypes (expected found : List ValType) :
    Proper m (expectTypes expected found) := by
  unfold expectTypes
  split
  · exact .pure trivial
  · exact .throw _

lemma yields_peekAtoms (types : List ValType) : Yields m (peekAtoms types) GenuineOperands :=
  (yields_peekOperands _).bind fun _ hops => (proper_expectTypes _ _).bind fun _ _ => .pure hops

lemma yields_popOperandsOf (types : List ValType) :
    Yields m (popOperandsOf types) GenuineOperands :=
  (yields_peekAtoms types).bind fun _ _ => yields_pop _

lemma GenuineOperands.atoms {ops : List Operand} (h : GenuineOperands ops) :
    ∀ a ∈ ops.map Operand.atom, a.Genuine :=
  List.forall_mem_map.2 h

lemma yields_popAtoms (types : List ValType) :
    Yields m (popAtoms types) fun atoms => ∀ a ∈ atoms, a.Genuine :=
  (yields_popOperandsOf types).bind fun _ hops => .pure hops.atoms

lemma yields_popAtom (ty : ValType) : Yields m (popAtom ty) Atom.Genuine := by
  refine (yields_popAtoms [ty]).bind fun atoms hatoms => ?_
  cases atoms with
  | nil => exact .throw _
  | cons atom atoms => exact .pure (hatoms atom List.mem_cons_self)

lemma yields_popOperand : Yields m popOperand fun op => op.atom.Genuine := by
  refine (yields_pop 1).bind fun ops hops => ?_
  cases ops with
  | nil => exact .throw _
  | cons op ops => exact .pure (hops op List.mem_cons_self)

lemma yields_popThree :
    Yields m popThree fun p => p.1.Genuine ∧ p.2.1.Genuine ∧ p.2.2.Genuine :=
  (yields_popAtom _).bind fun _ hlen => (yields_popAtom _).bind fun _ hsrc =>
    (yields_popAtom _).bind fun _ hdst => .pure ⟨hdst, hsrc, hlen⟩

/-! ### Locals -/

lemma proper_typeOfLocal (index : Nat) : Proper m (typeOfLocal index) := by
  refine Yields.get.bind fun b _ => ?_
  split
  · exact .pure trivial
  · exact .throw _

lemma proper_getLocal (index : Nat) : Proper m (getLocal index) := by
  refine (proper_typeOfLocal index).bind fun ty _ => proper_pushOperand ?_
  change (if ty.isRef then Atom.clone (.slot index) else .name (.slot index)).Genuine
  split <;> trivial

lemma yields_settleOperand (which : Nat → Bool) {op : Operand} (h : op.atom.Genuine) :
    Yields m (settleOperand which op) fun op' => op'.atom.Genuine := by
  unfold settleOperand
  split
  · rename_i atom index hslot
    have hatom : atom.Genuine := by rwa [Operand.atom, hslot] at h
    split
    · exact yields_newVar.bind fun x hx => emit_then ⟨⟨hx, hatom⟩, List.forall_mem_nil _⟩ <|
        .pure (genuine_bound hx op.ty)
    · exact .pure h
  · exact .pure h

lemma yields_settleStack (which : Nat → Bool) {ops : List Operand} (h : GenuineOperands ops) :
    Yields m (settleStack which ops) GenuineOperands := by
  induction ops with
  | nil => exact .pure h
  | cons op below ih =>
    obtain ⟨hop, hbelow⟩ := List.forall_mem_cons.1 h
    exact (ih hbelow).bind fun _ hbelow => (yields_settleOperand which hop).bind fun _ hop =>
      .pure (List.forall_mem_cons.2 ⟨hop, hbelow⟩)

lemma yields_settleFrames (which : Nat → Bool) {frames : List Frame}
    (h : ∀ frame ∈ frames, frame.Genuine) :
    Yields m (settleFrames which frames) fun frames' => ∀ frame ∈ frames', frame.Genuine := by
  induction frames with
  | nil => exact .pure h
  | cons frame frames ih =>
    obtain ⟨hframe, hframes⟩ := List.forall_mem_cons.1 h
    exact (ih hframes).bind fun _ houter => (yields_settleStack which hframe.stack).bind
      fun _ hstack => .pure (List.forall_mem_cons.2
        ⟨⟨hframe.label, hframe.branch, hframe.results, hstack⟩, houter⟩)

lemma proper_settle (which : Nat → Bool) : Proper m (settle which) := by
  refine Yields.get.bind fun b hb => (yields_settleFrames which hb.enclosing).bind
    fun enclosing henclosing => (yields_settleStack which hb.current.stack).bind
      fun stack hstack => ?_
  intro c _ c' hc hrun
  cases hrun
  exact ⟨⟨(hc.withStack hstack).current, henclosing, hc.out⟩, trivial⟩

lemma proper_setLocal (index : Nat) : Proper m (setLocal index) := by
  refine (proper_typeOfLocal index).bind fun ty _ => (yields_popAtom ty).bind fun value hvalue =>
    (proper_settle _).bind fun _ _ => Yields.bind (Q := fun _ => True) ?_ fun _ _ => .pure trivial
  exact proper_emit
    ⟨⟨List.forall_mem_singleton.2 trivial, List.forall_mem_singleton.2 hvalue⟩,
      List.forall_mem_nil _⟩

/-! ### Branches -/

lemma yields_targetFrame (levels : Nat) : Yields m (targetFrame levels) Frame.Genuine := by
  refine Yields.get.bind fun b hb => ?_
  split
  · rename_i frame hframe
    exact .pure (hb.frames frame (List.mem_of_getElem? hframe))
  · exact .throw _

lemma proper_branchTarget (levels : Nat) : Proper m (branchTarget levels) :=
  (yields_targetFrame levels).bind fun _ _ => .pure trivial

lemma proper_checkTargets (types : List ValType) (targets : List Nat) :
    Proper m (checkTargets types targets) := by
  induction targets with
  | nil => exact .pure trivial
  | cons levels rest ih =>
    refine (proper_branchTarget levels).bind fun target _ => ?_
    split
    · exact ih
    · exact .throw _

lemma proper_assignAll {vars : List Name} {values : List Atom} (hvars : ∀ x ∈ vars, x.Genuine)
    (hvalues : ∀ a ∈ values, a.Genuine) : Proper m (assignAll vars values) := by
  unfold assignAll
  split
  · exact .pure trivial
  · exact proper_emit ⟨⟨hvars, hvalues⟩, List.forall_mem_nil _⟩

lemma proper_branchOut (levels : Nat) {values : List Atom} (h : ∀ a ∈ values, a.Genuine) :
    Proper m (branchOut levels values) := by
  refine (yields_targetFrame levels).bind fun frame hframe => ?_
  split
  · split
    · exact proper_emit ⟨h, List.forall_mem_nil _⟩
    all_goals
      exact (proper_assignAll hframe.branch h).bind fun _ _ =>
        proper_emit ⟨hframe.label, List.forall_mem_nil _⟩
  · exact .throw _

lemma proper_markUnreachable : Proper m markUnreachable := by
  intro b _ b' hb hrun
  cases hrun
  exact ⟨⟨⟨hb.current.label, hb.current.branch, hb.current.results, hb.current.stack⟩,
    hb.enclosing, hb.out⟩, trivial⟩

lemma proper_lowerBr (levels : Nat) : Proper m (lowerBr levels) :=
  (proper_branchTarget levels).bind fun _ _ => (yields_popAtoms _).bind fun _ hvalues =>
    (proper_branchOut levels hvalues).bind fun _ _ => proper_markUnreachable

lemma proper_lowerBrIf (levels : Nat) : Proper m (lowerBrIf levels) :=
  (yields_popAtom _).bind fun _ hcond => (proper_branchTarget levels).bind fun _ _ =>
    (yields_peekAtoms _).bind fun _ hops => emit_then ⟨hcond, List.forall_mem_nil _⟩ <|
      (proper_branchOut levels hops.atoms).bind fun _ _ =>
        proper_emit ⟨trivial, List.forall_mem_nil _⟩

lemma proper_lowerArms {values : List Atom} (h : ∀ a ∈ values, a.Genuine) (arms : List TableArm) :
    Proper m (lowerArms values arms) := by
  induction arms with
  | nil => exact .pure trivial
  | cons arm arms ih =>
    exact emit_then ⟨trivial, List.forall_mem_nil _⟩ <|
      (proper_branchOut arm.levels h).bind fun _ _ =>
        emit_then ⟨trivial, List.forall_mem_nil _⟩ <| ih

lemma proper_lowerBrTable (targets : List Nat) (default : Nat) :
    Proper m (lowerBrTable targets default) :=
  (yields_popAtom _).bind fun _ hselector => (proper_branchTarget default).bind fun _ _ =>
    (proper_checkTargets _ _).bind fun _ _ => (yields_popAtoms _).bind fun _ hvalues =>
      emit_then ⟨hselector, List.forall_mem_nil _⟩ <| (proper_lowerArms hvalues _).bind fun _ _ =>
        emit_then ⟨trivial, List.forall_mem_nil _⟩ <|
          (proper_branchOut default hvalues).bind fun _ _ =>
            emit_then ⟨trivial, List.forall_mem_nil _⟩ <|
              emit_then ⟨trivial, List.forall_mem_nil _⟩ <| proper_markUnreachable

/-! ### Calls and choice -/

lemma proper_pushResults (results : List ValType) {call : Expr} (h : call.Genuine)
    (hrefs : ∀ r ∈ call.refs, m.Declares r) : Proper m (pushResults results call) := by
  unfold pushResults
  split
  · exact proper_emit ⟨h, hrefs⟩
  · exact proper_result _ h hrefs
  · exact (yields_push _).bind fun _ hvars => proper_emit ⟨⟨hvars, h⟩, hrefs⟩

lemma proper_unpackResults {values : Name} (h : values.Genuine) (position : Nat)
    (results : List ValType) : Proper m (unpackResults values position results) := by
  induction results generalizing position with
  | nil => exact .pure trivial
  | cons ty types ih =>
    exact Yields.bind (proper_result ty h (List.forall_mem_nil _)) fun _ _ => ih _

lemma proper_bindDynamicResults (results : List ValType) {call : Expr} (h : call.Genuine)
    (hrefs : ∀ r ∈ call.refs, m.Declares r) : Proper m (bindDynamicResults results call) := by
  unfold bindDynamicResults
  split
  · exact proper_emit ⟨h, hrefs⟩
  · exact yields_newVar.bind fun x hx => emit_then ⟨⟨hx, h⟩, hrefs⟩ <|
      proper_unpackResults hx 0 results

lemma genuine_zip (types : List ValType) {args : List Atom} (h : ∀ a ∈ args, a.Genuine) :
    ∀ p ∈ types.zip args, p.2.Genuine :=
  fun _ hp => h _ (List.of_mem_zip hp).2

lemma proper_lowerCall (func : Nat) : Proper m (lowerCall m func) := by
  refine (yields_require _).bind fun type _ => (yields_popAtoms _).bind fun args hargs =>
    (yields_require _).bind fun refers hrefers => ?_
  cases refers with
  | defined =>
    exact proper_pushResults _ hargs
      (List.forall_mem_singleton.2 (Module.declares_of_defined hrefers))
  | imported =>
    exact proper_bindDynamicResults _ (genuine_zip _ hargs)
      (List.forall_mem_singleton.2 (Module.declares_of_imported hrefers))

lemma proper_lowerCallIndirect (type table : Nat) : Proper m (lowerCallIndirect m type table) :=
  (yields_require _).bind fun _ htype => (yields_require _).bind fun _ htable =>
    (yields_popAtom _).bind fun _ hslot => (yields_popAtoms _).bind fun _ hargs =>
      yields_newVar.bind fun _ hcallee =>
        emit_then ⟨⟨hcallee, hslot⟩, List.forall_mem_singleton.2
          (Module.declares_of_requireFuncTable htable)⟩ <|
          emit_then ⟨hcallee, List.forall_mem_singleton.2
            (Module.declares_of_typeAt htype)⟩ <|
            proper_bindDynamicResults _ ⟨hcallee, genuine_zip _ hargs⟩ (List.forall_mem_nil _)

lemma proper_lowerRefFunc (func : Nat) : Proper m (lowerRefFunc m func) := by
  refine (yields_require _).bind fun refers hrefers => ?_
  cases refers with
  | defined =>
    have hdeclared : m.Declares (.handle func) := Module.declares_of_defined hrefers
    exact proper_result _ trivial (List.forall_mem_singleton.2 hdeclared)
  | imported =>
    exact proper_result _ trivial
      (List.forall_mem_singleton.2 (Module.declares_of_imported hrefers))

lemma proper_lowerSelect (annotated : Option ValType) : Proper m (lowerSelect annotated) := by
  refine (yields_popAtom _).bind fun cond hcond => (yields_pop 2).bind fun ops hops => ?_
  split
  · dsimp only
    split
    · exact proper_result _ ⟨hcond, hops _ (by simp), hops _ (by simp)⟩ (List.forall_mem_nil _)
    · exact .throw _
  · exact .throw _

/-! ### Instructions without control -/

lemma proper_lowerTableCopy (dst src : Nat) : Proper m (lowerTableCopy m dst src) := by
  refine (yields_require _).bind fun _ hdst => (yields_require _).bind fun _ hsrc =>
    yields_popThree.bind fun p hp => ?_
  have hdst := Module.declares_of_requireFuncTable hdst
  have hboth : ∀ r ∈ [Ref.field (.table src), .field (.table dst)], m.Declares r :=
    List.forall_mem_cons.2
      ⟨Module.declares_of_requireFuncTable hsrc, List.forall_mem_singleton.2 hdst⟩
  have hwithin : Resolved m (.perform (.tableCopyWithin dst p.2.1 p.1 p.2.2)) :=
    ⟨⟨hp.2.1, hp.1, hp.2.2⟩, List.forall_mem_singleton.2 hdst⟩
  dsimp only
  split
  · exact proper_emit hwithin
  · exact emit_then ⟨trivial, hboth⟩ <| emit_then hwithin <|
      emit_then ⟨trivial, List.forall_mem_nil _⟩ <|
        emit_then ⟨⟨hp.2.1, hp.1, hp.2.2⟩, hboth⟩ <| proper_emit ⟨trivial, List.forall_mem_nil _⟩

lemma proper_lowerSimple (m : Module) (instr : Instr) : Proper m (lowerSimple m instr) := by
  have one {P : Ref → Prop} {r : Ref} (h : P r) : ∀ r' ∈ [r], P r' := List.forall_mem_singleton.2 h
  -- tables, memories and operands are looked up in front of what is done with them
  have table {n : Nat} {α : Type} {f : Unit → Build α}
      (hf : m.Declares (.field (.table n)) → Proper m (f ())) :
      Proper m (require (m.requireFuncTable n) >>= f) :=
    (yields_require _).bind fun _ h => hf (Module.declares_of_requireFuncTable h)
  have memory {α : Type} {f : Unit → Build α}
      (hf : m.Declares (.field (.memory 0)) → Proper m (f ())) :
      Proper m (require (m.requireMemory 0) >>= f) :=
    (yields_require _).bind fun _ h => hf (Module.declares_of_requireMemory h)
  have pop {ty : ValType} {f : Atom → Build Unit} (hf : ∀ a, a.Genuine → Proper m (f a)) :
      Proper m (popAtom ty >>= f) := (yields_popAtom ty).bind hf
  cases instr with
  | unreachable => exact emit_then ⟨trivial, List.forall_mem_nil _⟩ <| proper_markUnreachable
  | nop | block | loop | ifElse => exact .pure trivial
  | br levels => exact proper_lowerBr levels
  | brIf levels => exact proper_lowerBrIf levels
  | brTable targets default => exact proper_lowerBrTable targets default
  | ret => exact Yields.get.bind fun _ _ => proper_lowerBr _
  | call func => exact proper_lowerCall func
  | callIndirect type table => exact proper_lowerCallIndirect type table
  | refNull ty =>
    rw [lowerSimple, lowerRefNull]
    split
    · exact proper_result _ trivial (List.forall_mem_nil _)
    · exact .throw _
  | refIsNull =>
    refine yields_popOperand.bind fun op hop => ?_
    split
    · exact proper_result _ hop (List.forall_mem_nil _)
    · exact .throw _
  | refFunc func => exact proper_lowerRefFunc func
  | drop => exact yields_popOperand.discard
  | select ty => exact proper_lowerSelect ty
  | localGet index => exact proper_getLocal index
  | localSet index => exact (proper_setLocal index).discard
  | localTee index => exact (proper_setLocal index).bind fun _ _ => proper_getLocal index
  | globalGet index =>
    exact (yields_require _).bind fun _ h =>
      proper_result _ trivial (one (Module.declares_of_typeOfGlobal h))
  | globalSet index =>
    refine (yields_require _).bind fun type h => ?_
    split
    · exact pop fun _ ha => proper_emit ⟨ha, one (Module.declares_of_typeOfGlobal h)⟩
    · exact .throw _
  | tableGet => exact table fun h => pop fun _ ha => proper_result _ ha (one h)
  | tableSet =>
    exact table fun h => pop fun _ hvalue => pop fun _ hindex =>
      proper_emit ⟨⟨hindex, hvalue⟩, one h⟩
  | tableSize => exact table fun h => proper_result _ trivial (one h)
  | tableGrow =>
    exact table fun h => pop fun _ hdelta => pop fun _ hinit =>
      proper_result _ ⟨hdelta, hinit⟩ (one h)
  | tableFill =>
    exact table fun h => pop fun _ hlen => pop fun _ hvalue => pop fun _ hoffset =>
      proper_emit ⟨⟨hlen, hvalue, hoffset⟩, one h⟩
  | tableCopy dst src => exact proper_lowerTableCopy dst src
  | tableInit segment index =>
    exact table fun h => (yields_require _).bind fun _ hsegment =>
      yields_popThree.bind fun _ hp => proper_emit ⟨⟨hp.2.1, hp.1, hp.2.2⟩,
        List.forall_mem_cons.2 ⟨h, one (Module.declares_of_requireElemSegment hsegment)⟩⟩
  | elemDrop segment =>
    exact (yields_require _).bind fun _ h =>
      proper_emit ⟨trivial, one (Module.declares_of_requireElemSegment h)⟩
  | load => exact memory fun h => pop fun _ ha => proper_result _ ⟨trivial, ha⟩ (one h)
  | store =>
    exact memory fun h => pop fun _ hvalue => pop fun _ haddr =>
      proper_emit ⟨⟨trivial, haddr, hvalue⟩, one h⟩
  | memorySize => exact memory fun h => proper_result _ trivial (one h)
  | memoryGrow => exact memory fun h => pop fun _ ha => proper_result _ ⟨trivial, ha⟩ (one h)
  | memoryInit segment =>
    exact memory fun h => (yields_require _).bind fun _ hsegment =>
      yields_popThree.bind fun _ hp => proper_emit ⟨⟨trivial, hp.2.1, hp.1, hp.2.2⟩,
        List.forall_mem_cons.2 ⟨h, one (Module.declares_of_requireDataSegment hsegment)⟩⟩
  | dataDrop segment =>
    exact (yields_require _).bind fun _ h =>
      proper_emit ⟨trivial, one (Module.declares_of_requireDataSegment h)⟩
  | memoryCopy =>
    exact memory fun h => yields_popThree.bind fun _ hp =>
      proper_emit ⟨⟨trivial, hp.2.1, hp.1, hp.2.2⟩, one h⟩
  | memoryFill =>
    exact memory fun h => yields_popThree.bind fun _ hp => proper_emit ⟨⟨trivial, hp⟩, one h⟩
  | i32Const | i64Const | f32Const | f64Const => exact proper_pushOperand trivial
  | compare ty op =>
    refine pop fun b hb => pop fun a ha => (yields_require _).bind fun e he => ?_
    unfold compareExpr at he
    split at he <;> cases he
    exact proper_result _ ⟨ha, hb⟩ (List.forall_mem_nil _)
  | unary ty op =>
    refine pop fun a ha => (yields_require _).bind fun e he => ?_
    unfold unaryExpr at he
    split at he <;> cases he
    exact proper_result _ ha (List.forall_mem_nil _)
  | binary ty op =>
    refine pop fun b hb => pop fun a ha => (yields_require _).bind fun e he => ?_
    unfold binaryExpr at he
    split at he <;> cases he
    exact proper_result _ ⟨ha, hb⟩ (List.forall_mem_nil _)
  | convert op => exact pop fun _ ha => proper_result _ ha (List.forall_mem_nil _)

/-! ### Constructs -/

lemma yields_declareAll (types : List ValType) :
    Yields m (declareAll types) fun vars => ∀ x ∈ vars, x.Genuine := by
  induction types with
  | nil => exact .pure (List.forall_mem_nil _)
  | cons ty types ih =>
    exact yields_newVar.bind fun x hx => emit_then ⟨⟨hx, trivial⟩, List.forall_mem_nil _⟩ <|
      ih.bind fun vars hvars => .pure (List.forall_mem_cons.2 ⟨hx, hvars⟩)

lemma yields_declareParams {ops : List Operand} (h : GenuineOperands ops) :
    Yields m (declareParams ops) GenuineOperands := by
  induction ops with
  | nil => exact .pure h
  | cons op ops ih =>
    obtain ⟨hop, hops⟩ := List.forall_mem_cons.1 h
    exact yields_newVar.bind fun x hx => emit_then ⟨⟨hx, hop⟩, List.forall_mem_nil _⟩ <|
      (ih hops).bind fun _ hparams => .pure (List.forall_mem_cons.2 ⟨genuine_bound hx _, hparams⟩)

lemma GenuineOperands.boundVars {ops : List Operand} (h : GenuineOperands ops) :
    ∀ x ∈ boundVars ops, x.Genuine := by
  intro x hx
  obtain ⟨⟨slot, ty⟩, hop, hslot⟩ := List.mem_filterMap.1 hx
  cases slot with
  | bound var =>
    cases hslot
    exact genuine_of_bound (h _ hop)
  | deferred => cases hslot

lemma proper_limitNesting : Proper m limitNesting := by
  refine Yields.get.bind fun b _ => ?_
  split
  · exact .throw _
  · exact .pure trivial

lemma proper_openFrame (kind : FrameKind) {label : Label} {branch results : Target}
    {params : List Operand} (hlabel : label.Genuine) (hbranch : branch.Genuine)
    (hresults : results.Genuine) (hparams : GenuineOperands params) :
    Proper m (openFrame kind label branch results params) := by
  intro b _ b' hb hrun
  cases hrun
  have hstack : GenuineOperands params.reverse := fun op hop => hparams op (List.mem_reverse.1 hop)
  exact ⟨⟨⟨hlabel, hbranch, hresults, hstack⟩, hb.frames, hb.out⟩, trivial⟩

lemma proper_closeFrame : Proper m closeFrame := by
  intro b _ b' hb hrun
  cases henclosing : b.enclosing with
  | nil =>
    -- the frame of the function stays
    have hsame : b' = b := by
      rw [closeFrame, modify_run, henclosing] at hrun
      cases hrun
      rfl
    exact ⟨hsame ▸ hb, trivial⟩
  | cons frame rest =>
    rw [closeFrame, modify_run, henclosing] at hrun
    cases hrun
    have hframes := hb.enclosing
    rw [henclosing] at hframes
    obtain ⟨hframe, hrest⟩ := List.forall_mem_cons.1 hframes
    exact ⟨⟨hframe, hrest, hb.out⟩, trivial⟩

lemma proper_closeScopes (scopes : Nat) : Proper m (closeScopes scopes) := by
  induction scopes with
  | zero => exact .pure trivial
  | succ n ih => exact emit_then ⟨trivial, List.forall_mem_nil _⟩ <| ih

lemma proper_topTypes (n : Nat) : Proper m (topTypes n) :=
  (yields_peekOperands n).bind fun _ _ => .pure trivial

lemma yields_takeResults (types : List ValType) :
    Yields m (takeResults types) fun atoms => ∀ a ∈ atoms, a.Genuine := by
  refine Yields.get.bind fun b _ => ?_
  dsimp only
  split
  · exact yields_popAtoms types
  · exact (proper_topTypes _).bind fun _ _ => .throw _

lemma proper_fallThrough : Proper m fallThrough := by
  refine Yields.get.bind fun b hb => ?_
  dsimp only
  split
  · exact .pure trivial
  · refine (yields_takeResults _).bind fun _ hvalues =>
      (proper_assignAll hb.current.results hvalues).bind fun _ _ => ?_
    split
    · exact proper_emit ⟨hb.current.label, List.forall_mem_nil _⟩
    · exact .pure trivial

lemma yields_openBlock (ty : BlockType) : Yields m (openBlock m ty) Target.Genuine :=
  proper_limitNesting.bind fun _ _ => (yields_require _).bind fun _ _ =>
    (proper_settle _).bind fun _ _ => (yields_popOperandsOf _).bind fun _ hparams =>
      (yields_declareAll _).bind fun _ hvars => yields_newLabel.bind fun _ hlabel =>
        emit_then ⟨hlabel, List.forall_mem_nil _⟩ <|
          Yields.bind (proper_openFrame _ hlabel hvars hvars hparams) fun _ _ => .pure hvars

lemma yields_openLoop (ty : BlockType) : Yields m (openLoop m ty) Target.Genuine :=
  proper_limitNesting.bind fun _ _ => (yields_require _).bind fun _ _ =>
    (proper_settle _).bind fun _ _ => (yields_popOperandsOf _).bind fun _ hincoming =>
      (yields_declareAll _).bind fun _ hvars => (yields_declareParams hincoming).bind
        fun _ hparams => yields_newLabel.bind fun _ hlabel =>
          emit_then ⟨hlabel, List.forall_mem_nil _⟩ <|
            Yields.bind (proper_openFrame _ hlabel hparams.boundVars hvars hparams) fun _ _ =>
              .pure hvars

/-- The second arm can be opened in a genuine builder. -/
structure ElseArm.Genuine (arm : ElseArm) : Prop where
  label : arm.label.Genuine
  results : arm.results.Genuine
  params : GenuineOperands arm.params

lemma yields_openIf (ty : BlockType) (hasElse : Bool) :
    Yields m (openIf m ty hasElse) ElseArm.Genuine := by
  refine proper_limitNesting.bind fun _ _ => (yields_require _).bind fun _ _ => ?_
  split
  · exact .throw _
  · exact (yields_popAtom _).bind fun _ hcond => (proper_settle _).bind fun _ _ =>
      (yields_popOperandsOf _).bind fun _ hparams => (yields_declareAll _).bind fun _ hvars =>
        yields_newLabel.bind fun _ hlabel => emit_then ⟨hlabel, List.forall_mem_nil _⟩ <|
          emit_then ⟨hcond, List.forall_mem_nil _⟩ <|
            Yields.bind (proper_openFrame _ hlabel hvars hvars hparams) fun _ _ =>
              .pure ⟨hlabel, hvars, hparams⟩

lemma proper_endThen : Proper m endThen :=
  proper_fallThrough.bind fun _ _ => proper_closeFrame

lemma proper_openElse {arm : ElseArm} (h : arm.Genuine) : Proper m (openElse arm) :=
  emit_then ⟨trivial, List.forall_mem_nil _⟩ <|
    proper_openFrame _ h.label h.results h.results h.params

lemma proper_endConstruct (inFrame : Bool) (scopes : Nat) {results : Target}
    (h : results.Genuine) : Proper m (endConstruct inFrame scopes results) := by
  have hrest : Proper m (do closeScopes scopes; pushAllBound results.vars results.types) :=
    (proper_closeScopes scopes).bind fun _ _ => proper_pushAllBound h _
  cases inFrame with
  | false => exact hrest
  | true => exact proper_fallThrough.bind fun _ _ => proper_closeFrame.bind fun _ _ => hrest

/-! ### Bodies -/

mutual

lemma proper_lowerInstr (m : Module) (instr : Instr) : Proper m (lowerInstr m instr) := by
  cases instr with
  | block ty body =>
    rw [lowerInstr]
    exact (yields_openBlock ty).bind fun _ hresults => (proper_lowerSeq m body).bind fun _ _ =>
      proper_endConstruct true 1 hresults
  | loop ty body =>
    rw [lowerInstr]
    exact (yields_openLoop ty).bind fun _ hresults => (proper_lowerSeq m body).bind fun _ _ =>
      proper_endConstruct true 1 hresults
  | ifElse ty thenBody elseBody =>
    rw [lowerInstr]
    refine (yields_openIf ty _).bind fun arm harm => (proper_lowerSeq m thenBody).bind fun _ _ =>
      proper_endThen.bind fun _ _ => ?_
    cases needsElse elseBody arm.results with
    | false => exact proper_endConstruct false 2 harm.results
    | true =>
      exact (proper_openElse harm).bind fun _ _ => (proper_lowerSeq m elseBody).bind fun _ _ =>
        proper_endConstruct true 2 harm.results
  | _ =>
    simp only [lowerInstr]
    exact proper_lowerSimple m _

lemma proper_lowerSeq (m : Module) (body : List Instr) : Proper m (lowerSeq m body) := by
  cases body with
  | nil =>
    rw [lowerSeq]
    exact .pure trivial
  | cons instr rest =>
    rw [lowerSeq]
    refine Yields.get.bind fun b _ => ?_
    split
    · exact .pure trivial
    -- the rest is lowered from whatever builder the instruction leaves: it is genuine again
    · exact (proper_lowerInstr m instr).bind fun _ _ => proper_lowerSeq m rest

end

lemma proper_endFunction : Proper m endFunction := by
  refine Yields.get.bind fun b _ => ?_
  split
  · exact .pure trivial
  · exact (yields_takeResults _).bind fun _ hvalues => proper_branchOut _ hvalues

lemma genuine_functionStart (func : FuncDef) (type : FuncType) :
    (functionStart func type).Genuine m := by
  refine ⟨⟨trivial, List.forall_mem_nil _, List.forall_mem_nil _, List.forall_mem_nil _⟩,
    List.forall_mem_nil _, ?_⟩
  intro line hline
  obtain ⟨p, -, rfl⟩ := List.mem_map.1 hline
  exact ⟨⟨trivial, trivial⟩, List.forall_mem_nil _⟩

/-- A method refers to nothing that the unit does not declare. -/
lemma resolved_of_lowerFunction {position : Nat} {method : Method}
    (h : lowerFunction m position = .ok method) : ∀ line ∈ method.body, Resolved m line := by
  obtain ⟨func, type, b, -, -, hrun, rfl⟩ := lowerFunction_eq_ok_iff.1 h
  have hproper : Proper m (do lowerSeq m func.body; endFunction) :=
    (proper_lowerSeq m func.body).bind fun _ _ => proper_endFunction
  exact (hproper (genuine_functionStart func type) hrun).1.out

end

end WasmAot.Lowering
