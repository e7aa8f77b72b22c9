/-
# Instructions keep operands in scope

An instruction that owns no others adds lines to the innermost scope.  What it pops can be read
there, wherever it was pushed, and what it pushes is a literal, a local or a variable that one of
its lines introduces.  So every operation leads from a sound builder to a sound one (`Safe`), and it
does not matter whether the operands have the right types.
-/
import WasmAot.Proofs.Scoping.Invariant

namespace WasmAot.Lowering

open Code Stateful

/-- If the operation succeeds, it leads to a later builder in the same frames, with the property. -/
def Safe {α : Type} (x : Build α) (b : Builder) (Q : α → Builder → Prop) : Prop :=
  ∀ a b', x b = .ok a b' → Progress b b' ∧ Q a b'

/-- An operation of which nothing is needed but that it is safe. -/
def Steps (x : Build Unit) (b : Builder) : Prop :=
  Safe x b fun _ _ => True

namespace Safe

variable {α β : Type} {b b₁ : Builder} {x : Build α} {f : α → Build β} {P Q : α → Builder → Prop}
  {R : β → Builder → Prop} {a : α}

lemma pure (h : Sound b) (hQ : Q a b) : Safe (Pure.pure a) b Q := by
  intro a' b' hrun
  cases hrun
  exact ⟨.refl h, hQ⟩

lemma throw (e : Error) : Safe (throwThe Error e) b Q := by
  intro a' b' hrun
  cases hrun

lemma of_run (hrun : x b = .ok a b₁) (h : Progress b b₁) (hQ : Q a b₁) : Safe x b Q := by
  intro a' b' hrun'
  cases hrun.symm.trans hrun'
  exact ⟨h, hQ⟩

lemma bind (hx : Safe x b P) (hf : ∀ a b', Progress b b' → P a b' → Safe (f a) b' R) :
    Safe (x >>= f) b R := by
  intro c b'' hrun
  obtain ⟨a, b', hfirst, hsecond⟩ := of_bind_run_ok hrun
  obtain ⟨hprogress, hP⟩ := hx a b' hfirst
  obtain ⟨hprogress', hR⟩ := hf a b' hprogress hP c b'' hsecond
  exact ⟨hprogress.trans hprogress', hR⟩

end Safe

section Operations

variable {b : Builder}

/-! ### Lines -/

/-- The line introduces nothing and may stand anywhere in the innermost scope of the builder. -/
def Builder.Allows (b : Builder) (line : Line) : Prop :=
  Quiet b.locals.length b.scopes b.muts line

lemma Builder.allows_of_read {line : Line} (hread : b.Sees line.read) (hbound : line.bound = [])
    (hassigned : line.assigned = []) : b.Allows line :=
  ⟨hbound, hread, by simp [hassigned]⟩

/-- A line without variables. -/
lemma Builder.allows_bare {line : Line} (hread : line.read = []) (hbound : line.bound = [])
    (hassigned : line.assigned = []) : b.Allows line :=
  Builder.allows_of_read (by rw [hread]; exact List.forall_mem_nil _) hbound hassigned

/-- Lines in a scope of their own. -/
lemma Builder.allows_scope {opener : Line} {lines : List Line} (hopener : b.Allows opener)
    (hlines : ∀ line ∈ lines, b.Allows line) :
    ∀ line ∈ [opener] ++ lines ++ [Line.close], b.Allows line := by
  intro line hline
  rcases List.mem_append.1 hline with hline | hline
  · rcases List.mem_append.1 hline with hline | hline
    · cases List.mem_singleton.1 hline
      exact hopener
    · exact hlines line hline
  · cases List.mem_singleton.1 hline
    exact Builder.allows_bare rfl rfl rfl

lemma emit_steps (h : Sound b) {line : Line} (hline : b.Allows line)
    (hdepth : depthAfter 0 [line] = some 0) : Steps (emit line) b := by
  have hprogress : Progress b (b.wrote 0 [line]) :=
    h.wrote_quiet (List.forall_mem_singleton.2 hline) hdepth
  exact .of_run (emit_run line) hprogress trivial

lemma perform_steps (h : Sound b) {e : Effect} (he : b.Sees e.names) :
    Steps (emit (.perform e)) b :=
  emit_steps h (Builder.allows_of_read he rfl rfl) rfl

/-- A new variable and the line that introduces it. -/
lemma Sound.bindOne (h : Sound b) (line : Line) {text : String} (hlayout : line.layout = .plain text)
    (hbound : line.bound = [.temp b.nextVar]) (hassigned : line.assigned = [])
    (hread : b.Sees line.read) :
    Progress b (b.wrote 1 [line]) ∧ (b.wrote 1 [line]).Sees [.temp b.nextVar] := by
  obtain ⟨hprogress, hsees⟩ :=
    h.wrote_bind hlayout (show line.bound = temps b.nextVar 1 from hbound) hassigned hread
  rw [hbound] at hsees
  exact ⟨hprogress, hsees⟩

lemma Operand.names_bound (x : Name) (ty : ValType) :
    (Operand.mk (.bound x) ty).atom.names = [x] := by
  unfold Operand.atom
  split
  · split <;> simp_all [Atom.names]
  · simp_all

lemma Sound.sees_operand (h : Sound b) {op : Operand} (hop : op ∈ b.operands) :
    b.Sees op.atom.names :=
  h.covers.known_of_mem hop

lemma Sound.sees_current (h : Sound b) {op : Operand} (hop : op ∈ b.current.stack) :
    b.Sees op.atom.names :=
  h.sees_operand (List.mem_flatMap.2 ⟨b.current, List.mem_cons_self, hop⟩)

lemma pushOperand_steps (h : Sound b) {op : Operand} (hop : b.Sees op.atom.names) :
    Steps (pushOperand op) b := by
  refine .of_run (pushOperand_run op) (h.withStack fun o ho => ?_) trivial
  rcases List.mem_cons.1 ho with rfl | ho
  · exact hop
  · exact h.sees_current ho

lemma result_steps (h : Sound b) {ty : ValType} {e : Expr} (he : b.Sees e.names) :
    Steps (result ty e) b := by
  obtain ⟨hprogress, hsees⟩ := h.bindOne (.bind false (.temp b.nextVar) ty e) rfl rfl rfl he
  refine .of_run (result_run ty e) (hprogress.trans (hprogress.sound.withStack fun op hop => ?_))
    trivial
  rcases List.mem_cons.1 hop with rfl | hop
  · rw [Operand.names_bound]
    exact hsees
  · exact hprogress.sees (h.sees_current hop)

lemma require_safe (h : Sound b) {α : Type} (x : Except Error α) :
    Safe (require x) b fun a _ => x = .ok a := by
  cases x with
  | ok a => exact .pure h rfl
  | error e => exact .throw e

/-! ### Taking operands off -/

lemma mem_operands_of_peek {n : Nat} {ops : List Operand} {b' : Builder}
    (hrun : peekOperands n b = .ok ops b') : b' = b ∧ ∀ op ∈ ops, op ∈ b.operands := by
  simp only [peekOperands_eq, bind_run, get_run] at hrun
  split at hrun
  · cases hrun
    exact ⟨rfl, fun op hop => List.mem_of_mem_take (List.mem_reverse.1 hop)⟩
  · cases hrun

lemma eq_popped_of_pop {n : Nat} {ops : List Operand} {b' : Builder}
    (hrun : pop n b = .ok ops b') : b' = b.popped n ∧ ∀ op ∈ ops, op ∈ b.operands := by
  rw [pop_eq] at hrun
  obtain ⟨ops', b₁, hpeek, hrest⟩ := of_bind_run_ok hrun
  obtain ⟨rfl, hops⟩ := mem_operands_of_peek hpeek
  cases hrest
  exact ⟨rfl, hops⟩

lemma mem_operands_of_peekAtoms {types : List ValType} {ops : List Operand} {b' : Builder}
    (hrun : peekAtoms types b = .ok ops b') : b' = b ∧ ∀ op ∈ ops, op ∈ b.operands := by
  obtain ⟨ops', b₁, hpeek, hrest⟩ := of_bind_run_ok hrun
  obtain ⟨rfl, hops⟩ := mem_operands_of_peek hpeek
  obtain ⟨⟨⟩, b₂, hexpect, hpure⟩ := of_bind_run_ok hrest
  unfold expectTypes at hexpect
  split at hexpect
  · cases hexpect
    cases hpure
    exact ⟨rfl, hops⟩
  · cases hexpect

lemma eq_popped_of_popOperandsOf {types : List ValType} {ops : List Operand} {b' : Builder}
    (hrun : popOperandsOf types b = .ok ops b') :
    b' = b.popped types.length ∧ ∀ op ∈ ops, op ∈ b.operands := by
  obtain ⟨ops', b₁, hpeek, hpop⟩ := of_bind_run_ok hrun
  obtain ⟨rfl, -⟩ := mem_operands_of_peekAtoms hpeek
  exact eq_popped_of_pop hpop

lemma map_shape_dropOperands (n : Nat) (frames : List Frame) :
    (dropOperands n frames).map Frame.shape = frames.map Frame.shape := by
  induction frames generalizing n with
  | nil => rfl
  | cons frame frames ih => rw [dropOperands, List.map_cons, List.map_cons, ih]; rfl

/-- What holds of all operands holds of those that are left. -/
lemma forall_dropOperands {P : Operand → Prop} {frames : List Frame}
    (h : ∀ frame ∈ frames, ∀ op ∈ frame.stack, P op) (n : Nat) :
    ∀ frame ∈ dropOperands n frames, ∀ op ∈ frame.stack, P op := by
  induction frames generalizing n with
  | nil => exact h
  | cons frame frames ih =>
    intro f hf op hop
    rcases List.mem_cons.1 hf with rfl | hf
    · exact h frame List.mem_cons_self op (List.mem_of_mem_drop hop)
    · exact ih (fun g hg => h g (List.mem_cons_of_mem _ hg)) _ f hf op hop

lemma settled_dropOperands {frames : List Frame} (h : Settled frames) (n : Nat) :
    Settled (dropOperands n frames) :=
  forall_dropOperands h n

lemma Sound.popped (h : Sound b) (n : Nat) : Progress b (b.popped n) := by
  obtain ⟨scope, outer, hscopes⟩ := h.covers.exists_scope
  exact ⟨⟨h.joined, h.fresh, h.covers.drop n, settled_dropOperands h.settled _⟩, rfl,
    map_shape_dropOperands n b.frames, fun _ hx => hx, scope, outer, [], hscopes, hscopes⟩

lemma pop_safe (h : Sound b) (n : Nat) :
    Safe (pop n) b fun ops b' => ∀ op ∈ ops, b'.Sees op.atom.names := by
  intro ops b' hrun
  obtain ⟨rfl, hops⟩ := eq_popped_of_pop hrun
  exact ⟨h.popped n, fun op hop => (h.popped n).sees (h.sees_operand (hops op hop))⟩

lemma popAtoms_safe (h : Sound b) (types : List ValType) :
    Safe (popAtoms types) b fun atoms b' => b'.Sees (atoms.flatMap Atom.names) := by
  have hpop : Safe (popOperandsOf types) b fun ops b' => ∀ op ∈ ops, b'.Sees op.atom.names := by
    intro ops b' hrun
    obtain ⟨rfl, hops⟩ := eq_popped_of_popOperandsOf hrun
    exact ⟨h.popped _, fun op hop => (h.popped _).sees (h.sees_operand (hops op hop))⟩
  refine hpop.bind fun ops b' hprogress hops => .pure hprogress.sound ?_
  intro x hx
  obtain ⟨atom, hatom, hname⟩ := List.mem_flatMap.1 hx
  obtain ⟨op, hop, rfl⟩ := List.mem_map.1 hatom
  exact hops op hop x hname

lemma popAtom_safe (h : Sound b) (ty : ValType) :
    Safe (popAtom ty) b fun atom b' => b'.Sees atom.names := by
  refine (popAtoms_safe h [ty]).bind fun atoms b' hprogress hatoms => ?_
  cases atoms with
  | nil => exact .throw _
  | cons atom atoms =>
    exact .pure hprogress.sound fun x hx => hatoms x (List.mem_append_left _ hx)

lemma popOperand_safe (h : Sound b) : Safe popOperand b fun op b' => b'.Sees op.atom.names := by
  refine (pop_safe h 1).bind fun ops b' hprogress hops => ?_
  cases ops with
  | nil => exact .throw _
  | cons op ops => exact .pure hprogress.sound (hops op List.mem_cons_self)

/-! ### Locals -/

/-- Operands that read locals are bound in the innermost scope. -/
lemma Sound.settling (h : Sound b) (which : Nat → Bool) {ops : List Operand}
    (hops : ∀ op ∈ ops, b.Sees op.atom.names) :
    let lines := settledLines which b.nextVar ops
    Progress b (b.wrote lines.length lines) ∧
      ∀ op ∈ settledStack which b.nextVar ops, (b.wrote lines.length lines).Sees op.atom.names := by
  induction ops with
  | nil =>
    simp only [settledLines, settledStack, List.length_nil, Builder.wrote_zero_nil]
    exact ⟨.refl h, by simp⟩
  | cons op below ih =>
    obtain ⟨hprogress, hbelow⟩ := ih fun o ho => hops o (List.mem_cons_of_mem _ ho)
    have hop := hops op List.mem_cons_self
    rw [settledLines, settledStack]
    cases hstale : staleAtom which op with
    | none => exact ⟨hprogress, List.forall_mem_cons.2 ⟨hprogress.sees hop, hbelow⟩⟩
    | some atom =>
      have hatom : atom = op.atom := eq_atom_of_staleAtom hstale
      -- the operand gets a line of its own behind those of the operands below it
      obtain ⟨hbind, hsees⟩ := hprogress.sound.bindOne
        (.bind false (.temp (b.nextVar + (settledLines which b.nextVar below).length)) op.ty
          (.atom atom)) rfl rfl rfl (hatom ▸ hprogress.sees hop)
      rw [Builder.wrote_wrote] at hbind hsees
      simp only [List.length_append, List.length_singleton]
      refine ⟨hprogress.trans hbind, List.forall_mem_cons.2 ⟨?_, fun o ho => ?_⟩⟩
      · rw [Operand.names_bound]
        exact hsees
      · exact hbind.sees (hbelow o ho)

lemma settle_steps (h : Sound b) (which : Nat → Bool) : Steps (settle which) b := by
  obtain ⟨hprogress, hstack⟩ := h.settling which fun op hop => h.sees_current hop
  exact .of_run (settle_run which h.settled) (hprogress.trans (hprogress.sound.withStack hstack))
    trivial

lemma typeOfLocal_safe (h : Sound b) (index : Nat) :
    Safe (typeOfLocal index) b fun _ b' => index < b'.locals.length := by
  intro ty b' hrun
  simp only [typeOfLocal, bind_run, get_run] at hrun
  cases hlocal : b.locals[index]? with
  | none =>
    rw [hlocal] at hrun
    cases hrun
  | some ty' =>
    rw [hlocal] at hrun
    cases hrun
    obtain ⟨hlt, -⟩ := List.getElem?_eq_some_iff.1 hlocal
    exact ⟨.refl h, hlt⟩

lemma getLocal_steps (h : Sound b) (index : Nat) : Steps (getLocal index) b := by
  refine (typeOfLocal_safe h index).bind fun ty b' hprogress hindex => ?_
  refine pushOperand_steps hprogress.sound fun x hx => ?_
  have hx' : x = .slot index := by
    simp only [Operand.atom] at hx
    split at hx <;> simpa [Atom.names] using hx
  rw [hx']
  exact hindex

lemma setLocal_safe (h : Sound b) (index : Nat) : Safe (setLocal index) b fun _ _ => True := by
  refine (typeOfLocal_safe h index).bind fun ty b₁ h₁ hindex => ?_
  refine (popAtom_safe h₁.sound ty).bind fun value b₂ h₂ hvalue => ?_
  refine (settle_steps h₂.sound _).bind fun _ b₃ h₃ _ => ?_
  have hindex' : index < b₃.locals.length := by rwa [h₃.locals, h₂.locals]
  have hallows : b₃.Allows (.assign [.slot index] [value]) := by
    refine ⟨rfl, fun x hx => ?_, fun x hx => ?_⟩
    · exact h₃.sees hvalue x (by simpa [Line.read] using hx)
    · cases List.mem_singleton.1 hx
      exact ⟨hindex', nofun⟩
  exact (emit_steps h₃.sound hallows rfl).bind fun _ _ h₄ _ => .pure h₄.sound trivial

lemma teeLocal_steps (h : Sound b) (index : Nat) : Steps (teeLocal index) b :=
  (setLocal_safe h index).bind fun _ _ h₁ _ => getLocal_steps h₁.sound index

/-! ### Branches -/

/-- Lines that close what they open. -/
def Level (lines : List Line) : Prop :=
  ∀ d, depthAfter d lines = some d

lemma Level.append {lines lines' : List Line} (h : Level lines) (h' : Level lines') :
    Level (lines ++ lines') := by
  intro d
  rw [depthAfter_append, h d]
  exact h' d

lemma Level.scope {opener : Line} {text : String} {lines : List Line} (h : Level lines)
    (hopens : opener.layout = .opening text) : Level ([opener] ++ lines ++ [Line.close]) := by
  intro d
  have hopen : depthAfter d [opener] = some (d + 1) := by simp only [depthAfter, hopens]
  rw [depthAfter_append, depthAfter_append, hopen, Option.bind_some, h (d + 1)]
  rfl

lemma level_exitLines (exit : Exit) (values : List Atom) : Level (exitLines exit values) := by
  have hassign : Level (assignLines exit.target.vars values) := by
    intro d
    unfold assignLines
    split <;> rfl
  unfold exitLines
  cases exit.kind with
  | function => exact fun d => rfl
  | loop | block | ifArm => exact hassign.append fun d => rfl

lemma Covers.targets {locals : Nat} {muts : List Name} {frames : List Frame} {scopes : Scopes}
    (h : Covers locals muts frames scopes) {frame : Frame} (hframe : frame ∈ frames) :
    ∀ x ∈ frame.branch.vars ++ frame.results.vars,
      Known locals scopes x ∧ ∀ n, x = .temp n → x ∈ muts := by
  induction h with
  | nil => cases hframe
  | cons hinner hoperands htargets _ ih =>
    intro x hx
    rcases List.mem_cons.1 hframe with rfl | hframe
    · exact ⟨(htargets x hx).1.inside _, (htargets x hx).2⟩
    · exact ⟨(ih hframe x hx).1.inside _, (ih hframe x hx).2⟩

/-- An assignment of known values to the variables of a frame. -/
lemma Sound.allows_assign (h : Sound b) {frame : Frame} (hframe : frame ∈ b.frames)
    {vars : List Name} (hvars : ∀ x ∈ vars, x ∈ frame.branch.vars ++ frame.results.vars)
    {values : List Atom} (hvalues : b.Sees (values.flatMap Atom.names)) :
    ∀ line ∈ assignLines vars values, b.Allows line := by
  intro line hline
  unfold assignLines at hline
  split at hline
  · cases hline
  · cases List.mem_singleton.1 hline
    exact ⟨rfl, hvalues, fun x hx => h.covers.targets hframe x (hvars x hx)⟩

lemma Sound.allows_exitLines (h : Sound b) {exit : Exit} (hexit : exit ∈ b.exits)
    {values : List Atom} (hvalues : b.Sees (values.flatMap Atom.names)) :
    ∀ line ∈ exitLines exit values, b.Allows line := by
  obtain ⟨frame, hframe, rfl⟩ := List.mem_map.1 hexit
  have hassign := h.allows_assign hframe (fun x hx => List.mem_append_left _ hx) hvalues
  have hleave : ∀ label, b.Allows (.breakTo label) ∧ b.Allows (.continueTo label) := fun label =>
    ⟨Builder.allows_bare rfl rfl rfl, Builder.allows_bare rfl rfl rfl⟩
  intro line hline
  unfold exitLines at hline
  split at hline
  · cases List.mem_singleton.1 hline
    exact Builder.allows_of_read hvalues rfl rfl
  · rcases List.mem_append.1 hline with hline | hline
    · exact hassign line hline
    · cases List.mem_singleton.1 hline
      exact (hleave _).2
  -- a block and a conditional are both left by a break
  all_goals
    rcases List.mem_append.1 hline with hline | hline
    · exact hassign line hline
    · cases List.mem_singleton.1 hline
      exact (hleave _).1

lemma exists_exit_of_branchOut {levels : Nat} {values : List Atom} {b' : Builder}
    (hrun : branchOut levels values b = .ok () b') :
    ∃ exit ∈ b.exits, b' = b.wrote 0 (exitLines exit values) := by
  obtain ⟨exit, hexit, rfl⟩ := exit_of_branchOut hrun
  exact ⟨exit, List.mem_of_getElem? hexit, rfl⟩

lemma branchOut_steps (h : Sound b) (levels : Nat) {values : List Atom}
    (hvalues : b.Sees (values.flatMap Atom.names)) : Steps (branchOut levels values) b := by
  intro _ b' hrun
  obtain ⟨exit, hexit, rfl⟩ := exists_exit_of_branchOut hrun
  exact ⟨h.wrote_quiet (h.allows_exitLines hexit hvalues) (level_exitLines exit values 0), trivial⟩

/-- To look up a target changes nothing. -/
lemma branchTarget_safe (h : Sound b) (levels : Nat) :
    Safe (branchTarget levels) b fun _ b' => b' = b := by
  intro target b' hrun
  cases hframe : b.frames[levels]? with
  | none =>
    rw [branchTarget, targetFrame, bind_run, bind_run_ok (get_run b), hframe] at hrun
    cases hrun
  | some frame =>
    rw [branchTarget, targetFrame, bind_run, bind_run_ok (get_run b), hframe] at hrun
    cases hrun
    exact ⟨.refl h, rfl⟩

lemma markUnreachable_steps (h : Sound b) : Steps markUnreachable b :=
  .of_run (show markUnreachable b = .ok () b.unreached from rfl)
    (h.of_same rfl rfl rfl rfl rfl rfl) trivial

lemma lowerBr_steps (h : Sound b) (levels : Nat) : Steps (lowerBr levels) b := by
  refine (branchTarget_safe h levels).bind fun target b₁ h₁ _ => ?_
  refine (popAtoms_safe h₁.sound target.types).bind fun values b₂ h₂ hvalues => ?_
  refine (branchOut_steps h₂.sound levels hvalues).bind fun _ b₃ h₃ _ => ?_
  exact markUnreachable_steps h₃.sound

lemma lowerBrIf_steps (h : Sound b) (levels : Nat) : Steps (lowerBrIf levels) b := by
  refine (popAtom_safe h .i32).bind fun cond b₁ h₁ hcond => ?_
  refine (branchTarget_safe h₁.sound levels).bind fun target b₂ h₂ hb₂ => ?_
  -- the operands stay on the stack, since control may go on behind the branch
  have hpeek : Safe (peekAtoms target.types) b₂ fun ops b' =>
      b' = b₂ ∧ b₂.Sees ((ops.map Operand.atom).flatMap Atom.names) := by
    intro ops b' hrun
    obtain ⟨rfl, hops⟩ := mem_operands_of_peekAtoms hrun
    refine ⟨.refl h₂.sound, rfl, fun x hx => ?_⟩
    obtain ⟨atom, hatom, hname⟩ := List.mem_flatMap.1 hx
    obtain ⟨op, hop, rfl⟩ := List.mem_map.1 hatom
    exact h₂.sound.sees_operand (hops op hop) x hname
  refine hpeek.bind fun ops b₃ h₃ ⟨hb₃, hvalues⟩ => ?_
  subst hb₃
  intro _ b' hrun
  rw [bind_run_ok (emit_run _)] at hrun
  obtain ⟨⟨⟩, b₄, hout, hclose⟩ := of_bind_run_ok hrun
  obtain ⟨exit, hexit, rfl⟩ := exists_exit_of_branchOut hout
  rw [emit_run, Builder.wrote_wrote, Builder.wrote_wrote, ← List.append_assoc] at hclose
  cases hclose
  have hopen : b₃.Allows (.openIf cond) := Builder.allows_of_read (h₂.sees hcond) rfl rfl
  have hlevel := (level_exitLines exit (ops.map Operand.atom)).scope
    (show (Line.openIf cond).layout = .opening _ from rfl)
  exact ⟨h₂.sound.wrote_quiet (Builder.allows_scope hopen (h₂.sound.allows_exitLines hexit hvalues))
    (hlevel 0), trivial⟩

/-- The arms of a branch table are scopes of their own. -/
lemma exists_lines_of_lowerArms (h : Sound b) {values : List Atom}
    (hvalues : b.Sees (values.flatMap Atom.names)) {arms : List TableArm} {b₁ b' : Builder}
    (hrun : lowerArms values arms b₁ = .ok () b') (hexits : b₁.exits = b.exits) :
    ∃ lines, b' = b₁.wrote 0 lines ∧ Level lines ∧ ∀ line ∈ lines, b.Allows line := by
  induction arms generalizing b₁ with
  | nil =>
    cases hrun
    exact ⟨[], (Builder.wrote_zero_nil _).symm, fun d => rfl, by simp⟩
  | cons arm arms ih =>
    rw [lowerArms, bind_run_ok (emit_run _)] at hrun
    obtain ⟨⟨⟩, b₂, hout, hrest⟩ := of_bind_run_ok hrun
    obtain ⟨exit, hexit, rfl⟩ := exists_exit_of_branchOut hout
    rw [bind_run_ok (emit_run _), Builder.wrote_wrote, Builder.wrote_wrote,
      ← List.append_assoc] at hrest
    obtain ⟨lines, rfl, hlevel, hlines⟩ := ih hrest hexits
    have hscope := (level_exitLines exit values).scope
      (show (Line.openCases arm.cases).layout = .opening _ from rfl)
    have hopen : b.Allows (.openCases arm.cases) := Builder.allows_bare rfl rfl rfl
    have hexit' : exit ∈ b.exits := hexits ▸ hexit
    refine ⟨_, Builder.wrote_wrote _ _ _ _ _, hscope.append hlevel,
      List.forall_mem_append.2 ⟨?_, hlines⟩⟩
    exact Builder.allows_scope hopen (h.allows_exitLines hexit' hvalues)

lemma checkTargets_safe (h : Sound b) (types : List ValType) (targets : List Nat) :
    Steps (checkTargets types targets) b := by
  induction targets with
  | nil => exact .pure h trivial
  | cons levels rest ih =>
    refine (branchTarget_safe h levels).bind fun target b₁ _ hb₁ => ?_
    subst hb₁
    split
    · exact ih
    · exact .throw _

lemma lowerBrTable_steps (h : Sound b) (targets : List Nat) (default : Nat) :
    Steps (lowerBrTable targets default) b := by
  refine (popAtom_safe h .i32).bind fun selector b₁ h₁ hselector => ?_
  refine (branchTarget_safe h₁.sound default).bind fun target b₂ h₂ _ => ?_
  refine (checkTargets_safe h₂.sound target.types targets).bind fun _ b₃ h₃ _ => ?_
  refine (popAtoms_safe h₃.sound target.types).bind fun values b₄ h₄ hvalues => ?_
  have hselector' : b₄.Sees selector.names := h₄.sees (h₃.sees (h₂.sees hselector))
  intro _ b' hrun
  rw [bind_run_ok (emit_run _)] at hrun
  obtain ⟨⟨⟩, b₅, harms, hrest⟩ := of_bind_run_ok hrun
  obtain ⟨lines, rfl, hlevel, hlines⟩ := exists_lines_of_lowerArms h₄.sound hvalues harms rfl
  rw [bind_run_ok (emit_run _)] at hrest
  obtain ⟨⟨⟩, b₆, hout, hclose⟩ := of_bind_run_ok hrest
  obtain ⟨exit, hexit, rfl⟩ := exists_exit_of_branchOut hout
  rw [bind_run_ok (emit_run _), bind_run_ok (emit_run _)] at hclose
  simp only [Builder.wrote_wrote] at hclose
  -- the arms and the default are scopes inside of the scope of the choice
  have hotherwise := (level_exitLines exit values).scope
    (show Line.openOtherwise.layout = .opening _ from rfl)
  have hmatch := (hlevel.append hotherwise).scope
    (show (Line.openMatch selector).layout = .opening _ from rfl)
  have hopen : b₄.Allows (.openMatch selector) := Builder.allows_of_read hselector' rfl rfl
  have hopenDefault : b₄.Allows .openOtherwise := Builder.allows_bare rfl rfl rfl
  have hallows := Builder.allows_scope hopen (List.forall_mem_append.2
    ⟨hlines, Builder.allows_scope hopenDefault (h₄.sound.allows_exitLines hexit hvalues)⟩)
  have hprogress := h₄.sound.wrote_quiet hallows (hmatch 0)
  obtain ⟨hlast, -⟩ := markUnreachable_steps hprogress.sound () b' (by
    simpa only [List.append_assoc, List.singleton_append, List.cons_append, List.nil_append]
      using hclose)
  exact ⟨hprogress.trans hlast, trivial⟩

/-! ### Calls -/

lemma push_run (types : List ValType) :
    push types b = .ok (temps b.nextVar types.length)
      ((b.withStack ((freshOperands b.nextVar types).reverse ++ b.current.stack)).wrote
        types.length []) := by
  induction types generalizing b with
  | nil =>
    rw [push, pure_run, List.length_nil, Builder.wrote_zero_nil]
    rfl
  | cons ty types ih =>
    rw [push, bind_run_ok newVar_run, pushBound, bind_run_ok (pushOperand_run _), bind_run_ok ih,
      pure_run, List.length_cons, temps_succ]
    simp only [freshOperands, Builder.wrote_withStack, Builder.withStack_withStack,
      Builder.wrote_wrote, Builder.withStack_current, Builder.wrote_current, Builder.wrote_nextVar,
      Builder.withStack_nextVar, List.reverse_cons, List.append_assoc, List.singleton_append,
      List.append_nil, Nat.add_comm 1]

lemma names_freshOperands {n : Nat} {types : List ValType} {op : Operand}
    (hop : op ∈ freshOperands n types) : ∀ x ∈ op.atom.names, x ∈ temps n types.length := by
  induction types generalizing n with
  | nil => cases hop
  | cons ty types ih =>
    rw [List.length_cons, temps_succ]
    rcases List.mem_cons.1 hop with rfl | hop
    · rw [Operand.names_bound]
      simp
    · exact fun x hx => List.mem_cons_of_mem _ (ih hop x hx)

lemma pushResults_steps (h : Sound b) (results : List ValType) {call : Expr}
    (hcall : b.Sees call.names) : Steps (pushResults results call) b := by
  -- the variables of several results are pushed before the line that introduces them
  have hmany : Steps (do let vars ← push results; emit (.bindTuple vars results call)) b := by
    have hrun : (do let vars ← push results; emit (.bindTuple vars results call)) b = .ok ()
        ((b.wrote results.length [.bindTuple (temps b.nextVar results.length) results call]).withStack
          ((freshOperands b.nextVar results).reverse ++ b.current.stack)) := by
      rw [bind_run_ok (push_run results), emit_run, Builder.wrote_wrote]
      rfl
    have hbound : (Line.bindTuple (temps b.nextVar results.length) results call).bound =
        temps b.nextVar results.length := rfl
    obtain ⟨hprogress, hsees⟩ := h.wrote_bind rfl hbound rfl hcall
    refine .of_run hrun (hprogress.trans (hprogress.sound.withStack fun op hop => ?_)) trivial
    rcases List.mem_append.1 hop with hop | hop
    · exact fun x hx => hsees x (names_freshOperands (List.mem_reverse.1 hop) x hx)
    · exact hprogress.sees (h.sees_current hop)
  match results with
  | [] => exact perform_steps h hcall
  | [ty] => exact result_steps h hcall
  | ty :: ty' :: types => exact hmany

lemma unpackResults_steps (h : Sound b) {values : Name} (hvalues : b.Sees [values]) (position : Nat)
    (results : List ValType) : Steps (unpackResults values position results) b := by
  induction results generalizing b position with
  | nil => exact .pure h trivial
  | cons ty types ih =>
    exact Safe.bind (result_steps h hvalues) fun _ b₁ h₁ _ => ih h₁.sound (h₁.sees hvalues) _

/-- A new variable for a dynamically typed value. -/
lemma bindDynamic_safe (h : Sound b) {e : Expr} (he : b.Sees e.names) {f : Name → Build Unit}
    (hf : ∀ x b', Progress b b' → b'.Sees [x] → Steps (f x) b') :
    Steps (do let x ← newVar; emit (.bindDynamic x e); f x) b := by
  obtain ⟨hprogress, hsees⟩ := h.bindOne (.bindDynamic (.temp b.nextVar) e) rfl rfl rfl he
  intro _ b' hrun
  rw [bind_run_ok newVar_run, bind_run_ok (emit_run _), Builder.wrote_wrote] at hrun
  obtain ⟨hlast, -⟩ := hf _ _ hprogress hsees () b' hrun
  exact ⟨hprogress.trans hlast, trivial⟩

lemma bindDynamicResults_steps (h : Sound b) {results : List ValType} {call : Expr}
    (hcall : b.Sees call.names) : Steps (bindDynamicResults results call) b := by
  unfold bindDynamicResults
  split
  · exact perform_steps h hcall
  · exact bindDynamic_safe h hcall fun x b' h₁ hx => unpackResults_steps h₁.sound hx 0 results

lemma sees_zip {types : List ValType} {args : List Atom}
    (h : b.Sees (args.flatMap Atom.names)) :
    b.Sees ((types.zip args).flatMap fun p => p.2.names) := by
  intro x hx
  obtain ⟨p, hp, hname⟩ := List.mem_flatMap.1 hx
  exact h x (List.mem_flatMap.2 ⟨p.2, (List.of_mem_zip hp).2, hname⟩)

lemma lowerCall_steps (h : Sound b) (m : Module) (func : Nat) : Steps (lowerCall m func) b := by
  refine (require_safe h _).bind fun type b₁ h₁ _ => ?_
  refine (popAtoms_safe h₁.sound type.params).bind fun args b₂ h₂ hargs => ?_
  refine (require_safe h₂.sound _).bind fun refers b₃ h₃ _ => ?_
  cases refers with
  | defined => exact pushResults_steps h₃.sound _ (h₃.sees hargs)
  | imported => exact bindDynamicResults_steps h₃.sound (sees_zip (h₃.sees hargs))

lemma lowerCallIndirect_steps (h : Sound b) (m : Module) (type table : Nat) :
    Steps (lowerCallIndirect m type table) b := by
  refine (require_safe h _).bind fun type b₁ h₁ _ => ?_
  refine (require_safe h₁.sound _).bind fun _ b₂ h₂ _ => ?_
  refine (popAtom_safe h₂.sound .i32).bind fun slot b₃ h₃ hslot => ?_
  refine (popAtoms_safe h₃.sound type.params).bind fun args b₄ h₄ hargs => ?_
  have hslot' : b₄.Sees (Expr.slotFunc table slot).names := h₄.sees hslot
  refine bindDynamic_safe h₄.sound hslot' fun callee b₅ h₅ hcallee => ?_
  refine Safe.bind (perform_steps h₅.sound hcallee) fun _ b₆ h₆ _ => ?_
  refine bindDynamicResults_steps h₆.sound (List.forall_mem_cons.2 ⟨?_, ?_⟩)
  · exact h₆.sees hcallee callee List.mem_cons_self
  · exact sees_zip (h₆.sees (h₅.sees hargs))

/-! ### Other instructions -/

lemma Builder.sees_append {xs ys : List Name} (h : b.Sees xs) (h' : b.Sees ys) :
    b.Sees (xs ++ ys) :=
  List.forall_mem_append.2 ⟨h, h'⟩

lemma Builder.sees_nil : b.Sees [] := by
  intro x hx
  cases hx

/-- An operation on one operand. -/
lemma popAtom_steps (h : Sound b) (ty : ValType) {f : Atom → Build Unit}
    (hf : ∀ a b', Progress b b' → b'.Sees a.names → Steps (f a) b') : Steps (popAtom ty >>= f) b :=
  (popAtom_safe h ty).bind fun a _ h₁ ha => hf a _ h₁ ha

/-- An operation on two operands. -/
lemma popTwo_steps (h : Sound b) (ty ty' : ValType) {f : Atom → Atom → Build Unit}
    (hf : ∀ a a' b', Progress b b' → b'.Sees a.names → b'.Sees a'.names → Steps (f a a') b') :
    Steps (do let a ← popAtom ty; let a' ← popAtom ty'; f a a') b :=
  (popAtom_safe h ty).bind fun a _ h₁ ha =>
    (popAtom_safe h₁.sound ty').bind fun a' _ h₂ ha' => hf a a' _ (h₁.trans h₂) (h₂.sees ha) ha'

/-- An operation on three integers. -/
lemma popThree_steps (h : Sound b) {f : Atom × Atom × Atom → Build Unit}
    (hf : ∀ x y z b', Progress b b' → b'.Sees x.names → b'.Sees y.names → b'.Sees z.names →
      Steps (f (x, y, z)) b') : Steps (popThree >>= f) b := by
  have hpop : Safe popThree b fun p b' =>
      b'.Sees p.1.names ∧ b'.Sees p.2.1.names ∧ b'.Sees p.2.2.names :=
    (popAtom_safe h .i32).bind fun len _ h₁ hlen =>
      (popAtom_safe h₁.sound .i32).bind fun src _ h₂ hsrc =>
        (popAtom_safe h₂.sound .i32).bind fun dst _ h₃ hdst =>
          .pure h₃.sound ⟨hdst, h₃.sees hsrc, h₃.sees (h₂.sees hlen)⟩
  exact hpop.bind fun p _ h₁ hp => hf p.1 p.2.1 p.2.2 _ h₁ hp.1 hp.2.1 hp.2.2

/-- An operation after an index has been checked. -/
lemma require_steps {α : Type} (x : Except Error α) {f : α → Build Unit}
    (hf : ∀ a, x = .ok a → Steps (f a) b) : Steps (require x >>= f) b := by
  cases x with
  | ok a => exact hf a rfl
  | error e => exact fun _ _ hrun => by cases hrun

lemma lowerSelect_steps (h : Sound b) (annotated : Option ValType) :
    Steps (lowerSelect annotated) b := by
  refine (popAtom_safe h .i32).bind fun cond b₁ h₁ hcond => ?_
  refine (pop_safe h₁.sound 2).bind fun ops b₂ h₂ hops => ?_
  split
  · rename_i first second
    dsimp only
    split
    · exact result_steps h₂.sound (Builder.sees_append (Builder.sees_append (h₂.sees hcond)
        (hops first (by simp))) (hops second (by simp)))
    · exact .throw _
  · exact .throw _

lemma lowerRefIsNull_steps (h : Sound b) : Steps lowerRefIsNull b := by
  refine (popOperand_safe h).bind fun op b₁ h₁ hop => ?_
  split
  · exact result_steps h₁.sound hop
  · exact .throw _

lemma lowerRefFunc_steps (h : Sound b) (m : Module) (func : Nat) :
    Steps (lowerRefFunc m func) b := by
  refine require_steps _ fun refers _ => ?_
  cases refers with
  | defined => exact result_steps h Builder.sees_nil
  | imported => exact result_steps h Builder.sees_nil

lemma lowerGlobalSet_steps (h : Sound b) (m : Module) (index : Nat) :
    Steps (lowerGlobalSet m index) b := by
  refine require_steps _ fun type _ => ?_
  split
  · exact popAtom_steps h type.ty fun _ _ h₁ ha => perform_steps h₁.sound ha
  · exact .throw _

lemma lowerTableFill_steps (h : Sound b) (m : Module) (table : Nat) :
    Steps (lowerTableFill m table) b := by
  refine require_steps _ fun _ _ => popAtom_steps h .i32 fun len b₁ h₁ hlen => ?_
  refine popTwo_steps h₁.sound .funcref .i32 fun value offset b₂ h₂ hvalue hoffset => ?_
  exact perform_steps h₂.sound
    (Builder.sees_append (Builder.sees_append (h₂.sees hlen) hvalue) hoffset)

lemma lowerTableCopy_steps (h : Sound b) (m : Module) (dstTable srcTable : Nat) :
    Steps (lowerTableCopy m dstTable srcTable) b := by
  refine require_steps _ fun _ _ => require_steps _ fun _ _ => ?_
  refine popThree_steps h fun dst src len b₁ h₁ hdst hsrc hlen => ?_
  have hargs := Builder.sees_append (Builder.sees_append hsrc hdst) hlen
  have hwithin : b₁.Allows (.perform (.tableCopyWithin dstTable src dst len)) :=
    Builder.allows_of_read hargs rfl rfl
  have hcopy : b₁.Allows (.perform (.tableCopy srcTable dstTable src dst len)) :=
    Builder.allows_of_read hargs rfl rfl
  dsimp only
  split
  · exact emit_steps h₁.sound hwithin rfl
  -- two indices may stand for one table, so both ways to copy are written
  · intro _ b' hrun
    rw [bind_run_ok (emit_run _), bind_run_ok (emit_run _), bind_run_ok (emit_run _),
      bind_run_ok (emit_run _), emit_run] at hrun
    simp only [Builder.wrote_wrote] at hrun
    cases hrun
    refine ⟨h₁.sound.wrote_quiet ?_ rfl, trivial⟩
    simp only [List.forall_mem_append, List.forall_mem_singleton]
    exact ⟨⟨⟨⟨Builder.allows_bare rfl rfl rfl, hwithin⟩, Builder.allows_bare rfl rfl rfl⟩, hcopy⟩,
      Builder.allows_bare rfl rfl rfl⟩

lemma names_of_compareExpr {ty : ValType} {op : CmpOp} {a a' : Atom} {e : Expr}
    (h : compareExpr ty op a a' = .ok e) : e.names = a.names ++ a'.names := by
  unfold compareExpr at h
  split at h <;> cases h
  rfl

lemma names_of_unaryExpr {ty : ValType} {op : UnOp} {a : Atom} {e : Expr}
    (h : unaryExpr ty op a = .ok e) : e.names = a.names := by
  unfold unaryExpr at h
  split at h <;> cases h
  rfl

lemma names_of_binaryExpr {ty : ValType} {op : BinOp} {a a' : Atom} {e : Expr}
    (h : binaryExpr ty op a a' = .ok e) : e.names = a.names ++ a'.names := by
  unfold binaryExpr at h
  split at h <;> cases h
  rfl

/-- An instruction that owns no others leads from a sound builder to a sound one. -/
lemma lowerSimple_steps (h : Sound b) (m : Module) (instr : Instr) :
    Steps (lowerSimple m instr) b := by
  cases instr with
  | unreachable =>
    exact Safe.bind (emit_steps h (Builder.allows_bare rfl rfl rfl) rfl) fun _ _ h₁ _ =>
      markUnreachable_steps h₁.sound
  | nop | block | loop | ifElse => exact .pure h trivial
  | br depth => exact lowerBr_steps h depth
  | brIf depth => exact lowerBrIf_steps h depth
  | brTable targets default => exact lowerBrTable_steps h targets default
  | ret => exact lowerBr_steps h b.depth
  | call func => exact lowerCall_steps h m func
  | callIndirect type table => exact lowerCallIndirect_steps h m type table
  | refNull ty =>
    rw [lowerSimple, lowerRefNull]
    split
    · exact result_steps h Builder.sees_nil
    · exact .throw _
  | refIsNull => exact lowerRefIsNull_steps h
  | refFunc func => exact lowerRefFunc_steps h m func
  | drop => exact (popOperand_safe h).bind fun _ _ h₁ _ => .pure h₁.sound trivial
  | select ty => exact lowerSelect_steps h ty
  | localGet index => exact getLocal_steps h index
  | localSet index => exact (setLocal_safe h index).bind fun _ _ h₁ _ => .pure h₁.sound trivial
  | localTee index => exact teeLocal_steps h index
  | globalGet index => exact require_steps _ fun type _ => result_steps h Builder.sees_nil
  | globalSet index => exact lowerGlobalSet_steps h m index
  | tableGet table =>
    exact require_steps _ fun _ _ => popAtom_steps h _ fun _ _ h₁ ha => result_steps h₁.sound ha
  | tableSet table =>
    exact require_steps _ fun _ _ => popTwo_steps h _ _ fun value index _ h₁ hvalue hindex =>
      perform_steps h₁.sound (Builder.sees_append hindex hvalue)
  | tableInit segment table =>
    exact require_steps _ fun _ _ => require_steps _ fun _ _ =>
      popThree_steps h fun dst src len _ h₁ hdst hsrc hlen =>
        perform_steps h₁.sound (Builder.sees_append (Builder.sees_append hsrc hdst) hlen)
  | elemDrop segment => exact require_steps _ fun _ _ => perform_steps h Builder.sees_nil
  | tableCopy dst src => exact lowerTableCopy_steps h m dst src
  | tableGrow table =>
    exact require_steps _ fun _ _ => popTwo_steps h _ _ fun delta init _ h₁ hdelta hinit =>
      result_steps h₁.sound (Builder.sees_append hdelta hinit)
  | tableSize table => exact require_steps _ fun _ _ => result_steps h Builder.sees_nil
  | tableFill table => exact lowerTableFill_steps h m table
  | load op arg =>
    exact require_steps _ fun _ _ => popAtom_steps h _ fun _ _ h₁ ha => result_steps h₁.sound ha
  | store op arg =>
    exact require_steps _ fun _ _ => popTwo_steps h _ _ fun value addr _ h₁ hvalue haddr =>
      perform_steps h₁.sound (Builder.sees_append haddr hvalue)
  | memorySize => exact require_steps _ fun _ _ => result_steps h Builder.sees_nil
  | memoryGrow =>
    exact require_steps _ fun _ _ => popAtom_steps h _ fun _ _ h₁ ha => result_steps h₁.sound ha
  | memoryInit segment =>
    exact require_steps _ fun _ _ => require_steps _ fun _ _ =>
      popThree_steps h fun dst src len _ h₁ hdst hsrc hlen =>
        perform_steps h₁.sound (Builder.sees_append (Builder.sees_append hsrc hdst) hlen)
  | dataDrop segment => exact require_steps _ fun _ _ => perform_steps h Builder.sees_nil
  | memoryCopy =>
    exact require_steps _ fun _ _ => popThree_steps h fun dst src len _ h₁ hdst hsrc hlen =>
      perform_steps h₁.sound (Builder.sees_append (Builder.sees_append hsrc hdst) hlen)
  | memoryFill =>
    exact require_steps _ fun _ _ => popThree_steps h fun dst value len _ h₁ hdst hvalue hlen =>
      perform_steps h₁.sound (Builder.sees_append (Builder.sees_append hdst hvalue) hlen)
  | i32Const | i64Const | f32Const | f64Const => exact pushOperand_steps h Builder.sees_nil
  | compare ty op =>
    exact popTwo_steps h _ _ fun second first _ h₁ hsecond hfirst => require_steps _ fun e he =>
      result_steps h₁.sound (by
        rw [names_of_compareExpr he]
        exact Builder.sees_append hfirst hsecond)
  | unary ty op =>
    exact popAtom_steps h _ fun a _ h₁ ha => require_steps _ fun e he =>
      result_steps h₁.sound (by
        rw [names_of_unaryExpr he]
        exact ha)
  | binary ty op =>
    exact popTwo_steps h _ _ fun second first _ h₁ hsecond hfirst => require_steps _ fun e he =>
      result_steps h₁.sound (by
        rw [names_of_binaryExpr he]
        exact Builder.sees_append hfirst hsecond)
  | convert op => exact popAtom_steps h _ fun a _ h₁ ha => result_steps h₁.sound ha

end Operations

end WasmAot.Lowering
