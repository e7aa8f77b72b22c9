/-
# Bodies are well scoped

A construct declares its results in the scope around it, opens scopes of its own, and closes them at
its end; everything in between adds to the scopes of the construct only (`Within`).  By induction on
the instructions every body leads from a sound builder to a sound one, and so the lines of a whole
function are well scoped, whether or not its body is valid.
-/
import WasmAot.Proofs.Lowering.Recursive
import WasmAot.Proofs.Scoping.Instructions

namespace WasmAot.Lowering

open Code Stateful

/-! ### Declarations -/

section Declarations

variable {b : Builder}

/-- The variables may be read, and they were introduced with `let mut`. -/
def Builder.Declares (b : Builder) (vars : List Name) : Prop :=
  b.Sees vars ∧ ∀ x ∈ vars, x ∈ b.muts

lemma Progress.declares {b' : Builder} (h : Progress b b') {vars : List Name}
    (hvars : b.Declares vars) : b'.Declares vars :=
  ⟨h.sees hvars.1, fun x hx => h.muts x (hvars.2 x hx)⟩

/-- A declaration and the declarations behind it. -/
lemma Progress.declares_cons {b₁ b₂ : Builder} {var : Name} {vars : List Name}
    (hfirst : Progress b b₁) (hvar : b₁.Declares [var]) (hrest : Progress b₁ b₂)
    (hvars : b₂.Declares vars) : Progress b b₂ ∧ b₂.Declares (var :: vars) := by
  have hvar' := hrest.declares hvar
  exact ⟨hfirst.trans hrest, List.forall_mem_cons.2 ⟨hvar'.1 _ List.mem_cons_self, hvars.1⟩,
    List.forall_mem_cons.2 ⟨hvar'.2 _ List.mem_cons_self, hvars.2⟩⟩

/-- A line with `let mut`. -/
lemma Sound.declareOne (h : Sound b) (ty : ValType) {e : Expr} (he : b.Sees e.names) :
    Progress b (b.wrote 1 [.bind true (.temp b.nextVar) ty e]) ∧
      (b.wrote 1 [.bind true (.temp b.nextVar) ty e]).Declares [.temp b.nextVar] := by
  obtain ⟨hprogress, hsees⟩ := h.bindOne (.bind true (.temp b.nextVar) ty e) rfl rfl rfl he
  refine ⟨hprogress, hsees, fun x hx => ?_⟩
  rw [List.mem_singleton.1 hx, Builder.muts, Builder.wrote_out, Array.toList_append,
    List.flatMap_append]
  exact List.mem_append_right _ (by simp [Line.boundMut])

lemma Sound.wrote_zeroLines (h : Sound b) (types : List ValType) :
    Progress b (b.wrote types.length (zeroLines b.nextVar types)) ∧
      (b.wrote types.length (zeroLines b.nextVar types)).Declares
        (temps b.nextVar types.length) := by
  induction types generalizing b with
  | nil =>
    rw [List.length_nil, zeroLines, Builder.wrote_zero_nil]
    exact ⟨.refl h, by simp [Builder.Declares, Builder.Sees, temps]⟩
  | cons ty types ih =>
    obtain ⟨hfirst, hvar⟩ := h.declareOne ty (e := .zero ty) Builder.sees_nil
    obtain ⟨hrest, hvars⟩ := ih hfirst.sound
    rw [Builder.wrote_wrote, Nat.add_comm 1] at hrest hvars
    rw [List.length_cons, temps_succ, zeroLines]
    exact hfirst.declares_cons hvar hrest hvars

lemma Sound.wrote_copyLines (h : Sound b) {ops : List Operand}
    (hops : ∀ op ∈ ops, b.Sees op.atom.names) :
    Progress b (b.wrote ops.length (copyLines b.nextVar ops)) ∧
      (b.wrote ops.length (copyLines b.nextVar ops)).Declares (temps b.nextVar ops.length) := by
  induction ops generalizing b with
  | nil =>
    rw [List.length_nil, copyLines, Builder.wrote_zero_nil]
    exact ⟨.refl h, by simp [Builder.Declares, Builder.Sees, temps]⟩
  | cons op ops ih =>
    obtain ⟨hfirst, hvar⟩ := h.declareOne op.ty (e := .atom op.atom) (hops op List.mem_cons_self)
    obtain ⟨hrest, hvars⟩ :=
      ih hfirst.sound fun o ho => hfirst.sees (hops o (List.mem_cons_of_mem _ ho))
    rw [Builder.wrote_wrote, Nat.add_comm 1] at hrest hvars
    rw [List.length_cons, temps_succ, copyLines]
    exact hfirst.declares_cons hvar hrest hvars

/-- What is done before a construct is opened: afterwards no operand reads a local, and the
parameters and the results of the construct can be used. -/
lemma Sound.prepare (h : Sound b) {types results : List ValType} {params : List Operand}
    {vars : List Name} {b₁ b₂ b₃ : Builder} (hsettle : settleLocals b = .ok () b₁)
    (hpop : popOperandsOf types b₁ = .ok params b₂)
    (hdeclare : declareAll results b₂ = .ok vars b₃) :
    Progress b b₃ ∧ Settled b₃.frames ∧ (∀ op ∈ params, b₃.Sees op.atom.names) ∧
      b₃.Declares vars := by
  obtain ⟨hstep₁, -⟩ := settle_steps h (fun _ => true) () b₁ hsettle
  obtain ⟨rfl, hparams⟩ := eq_popped_of_popOperandsOf hpop
  have hstep₂ := hstep₁.sound.popped types.length
  obtain ⟨hstep₃, hvars⟩ := hstep₂.sound.wrote_zeroLines results
  cases (declareAll_run results).symm.trans hdeclare
  -- the reads of the innermost frame are bound now, and the other frames had none
  have hsettled : Settled b₁.frames := by
    cases (settleLocals_run h.settled).symm.trans hsettle
    intro frame hframe
    rcases List.mem_cons.1 hframe with rfl | hframe
    · exact reads_settledStack_all
    · exact h.settled frame hframe
  refine ⟨(hstep₁.trans hstep₂).trans hstep₃, settled_dropOperands hsettled _, fun op hop => ?_,
    hvars⟩
  exact (hstep₂.trans hstep₃).sees (hstep₁.sound.sees_operand (hparams op hop))

end Declarations

/-! ### Constructs -/

/-- The builder `b` is inside of a construct that was opened in `b₀`, in the frame of the construct.
-/
structure Within (b₀ b : Builder) (frame : Frame) : Prop where
  sound : Sound b
  locals : b.locals = b₀.locals
  shapes : b.frames.map Frame.shape = frame.shape :: b₀.frames.map Frame.shape
  muts : ∀ x ∈ b₀.muts, x ∈ b.muts
  scopes : ∃ inner, inner.length = frame.kind.scopes ∧ b.scopes = inner ++ b₀.scopes

/-- The frame of either arm of a conditional. -/
def ElseArm.frame (arm : ElseArm) : Frame :=
  ⟨.ifArm, arm.label, arm.params.reverse, arm.results, arm.results, false⟩

section Constructs

variable {b₀ b b' : Builder} {frame frame' outer : Frame} {frames : List Frame}

lemma FrameKind.scopes_pos (kind : FrameKind) : 0 < kind.scopes := by
  cases kind <;> decide

/-- A construct is opened where no operand reads a local. -/
lemma Sound.enter (h : Sound b) (hsettled : Settled b.frames) {openers : List Line}
    (hopeners : ∀ line ∈ openers, b.Allows line)
    (hdepth : depthAfter 0 openers = some frame.kind.scopes)
    (hstack : ∀ op ∈ frame.stack, b.Sees op.atom.names)
    (hbranch : b.Declares frame.branch.vars) (hresults : b.Declares frame.results.vars) :
    Within b ((b.wrote 0 openers).inside frame) frame := by
  have hlines : ((b.wrote 0 openers).inside frame).out.toList = b.out.toList ++ openers := by
    simp [Builder.inside]
  obtain ⟨hjoined, hafter⟩ := h.joined.append (d := 0) rfl h.scopes_ne_nil hopeners hdepth
  have hscopes' : ((b.wrote 0 openers).inside frame).scopes =
      List.replicate frame.kind.scopes [] ++ b.scopes := by
    rw [Builder.scopes, hlines, hafter]
    rfl
  have hmuts := Builder.muts_of_out hlines
  refine ⟨⟨by rw [hlines]; exact hjoined,
    h.fresh_of_out hlines fun line hline => (hopeners line hline).bound, ?_, hsettled⟩, rfl, rfl,
    hmuts, _, List.length_replicate, hscopes'⟩
  rw [hscopes']
  refine .cons List.length_replicate (fun op hop x hx => (hstack op hop x hx).inside _) ?_
    (h.covers.mono hmuts)
  intro x hx
  rcases List.mem_append.1 hx with hx | hx
  · exact ⟨hbranch.1 x hx, fun _ _ => hmuts x (hbranch.2 x hx)⟩
  · exact ⟨hresults.1 x hx, fun _ _ => hmuts x (hresults.2 x hx)⟩

/-- The body of a construct stays inside of it. -/
lemma Within.progress (h : Within b₀ b frame) (hprogress : Progress b b') : Within b₀ b' frame := by
  obtain ⟨inner, hlen, hscopes⟩ := h.scopes
  obtain ⟨scope, outer, new, hbefore, hafter⟩ := hprogress.scopes
  refine ⟨hprogress.sound, hprogress.locals.trans h.locals, hprogress.shapes.trans h.shapes,
    fun x hx => hprogress.muts x (h.muts x hx), ?_⟩
  cases inner with
  | nil => exact absurd hlen (Nat.ne_of_lt frame.kind.scopes_pos)
  | cons first inner =>
    rw [hbefore, List.cons_append, List.cons.injEq] at hscopes
    obtain ⟨rfl, rfl⟩ := hscopes
    exact ⟨(new ++ scope) :: inner, hlen, hafter⟩

/-- The frames around a construct still have the scopes that they had when it was opened. -/
lemma Within.covers (h : Within b₀ b frame) :
    Covers b₀.locals.length b.muts b.enclosing b₀.scopes ∧
      ∀ x ∈ frame.branch.vars ++ frame.results.vars,
        Known b₀.locals.length b₀.scopes x ∧ ∀ n, x = .temp n → x ∈ b.muts := by
  obtain ⟨inner, hlen, hscopes⟩ := h.scopes
  have hshapes := h.shapes
  rw [Builder.frames, List.map_cons, List.cons.injEq] at hshapes
  simp only [Frame.shape, Prod.mk.injEq] at hshapes
  obtain ⟨⟨hkind, -, hbranch, hresults⟩, -⟩ := hshapes
  have hcovers := h.sound.covers
  rw [Builder.frames] at hcovers
  generalize hall : b.scopes = scopes at hcovers
  cases hcovers with
  | cons hinner _ htargets houter =>
    -- a construct has as many scopes as its kind opens, so the rest are those around it
    rw [hscopes] at hall
    obtain ⟨-, rfl⟩ := List.append_inj hall (by rw [hlen, hinner, hkind])
    rw [h.locals] at htargets houter
    rw [hbranch, hresults] at htargets
    exact ⟨houter, htargets⟩

/-- The end of a construct leads back to the frames around it. -/
lemma Within.leave (h : Within b₀ b frame) (henclosing : b.enclosing = outer :: frames) :
    Progress b₀
      ((b.withFrames outer frames).wrote 0 (List.replicate frame.kind.scopes .close)) := by
  obtain ⟨hcovers, -⟩ := h.covers
  obtain ⟨inner, hlen, hscopes⟩ := h.scopes
  have hshapes := h.shapes
  rw [Builder.frames, List.map_cons, List.cons.injEq, henclosing] at hshapes
  rw [henclosing] at hcovers
  obtain ⟨scope, around, hscopes₀⟩ := hcovers.exists_scope
  have hne : b₀.scopes ≠ [] := by
    rw [hscopes₀]
    exact List.cons_ne_nil _ _
  -- closing the scopes of the construct leads back to those from which it was opened
  obtain ⟨hjoined, hafter⟩ := h.sound.joined.close hscopes hne
  rw [hlen] at hjoined hafter
  have hlines : ((b.withFrames outer frames).wrote 0
      (List.replicate frame.kind.scopes .close)).out.toList =
      b.out.toList ++ List.replicate frame.kind.scopes .close := by
    simp [Builder.withFrames]
  have hscopes' : ((b.withFrames outer frames).wrote 0
      (List.replicate frame.kind.scopes .close)).scopes = b₀.scopes := by
    rw [Builder.scopes, hlines, hafter]
  have hmuts := Builder.muts_of_out hlines
  have hbound : ∀ line ∈ List.replicate frame.kind.scopes Line.close, line.bound = [] := by
    intro line hline
    rw [List.eq_of_mem_replicate hline]
    rfl
  refine ⟨⟨?_, h.sound.fresh_of_out hlines hbound, ?_, ?_⟩, h.locals, hshapes.2,
    fun x hx => hmuts x (h.muts x hx), scope, around, [], hscopes₀, hscopes'.trans hscopes₀⟩
  · rw [hlines]
    exact hjoined
  · rw [hscopes']
    change Covers b.locals.length _ _ _
    rw [h.locals]
    exact hcovers.mono hmuts
  · have hsettled := h.sound.settled
    rw [henclosing] at hsettled
    exact fun f hf => hsettled f (List.mem_cons_of_mem _ hf)

/-- The second arm of a conditional takes the place of the first one. -/
lemma Within.reopen (h : Within b₀ b frame) (henclosing : b.enclosing = outer :: frames)
    (hshape : frame'.shape = frame.shape) (hstack : ∀ op ∈ frame'.stack, b₀.Sees op.atom.names) :
    Within b₀ (((b.withFrames outer frames).wrote 0 [.openElse]).inside frame') frame' := by
  obtain ⟨hcovers, htargets⟩ := h.covers
  obtain ⟨inner, hlen, hscopes⟩ := h.scopes
  have hshapes := h.shapes
  rw [Builder.frames, List.map_cons, List.cons.injEq, henclosing] at hshapes
  rw [henclosing] at hcovers
  have hsettled := h.sound.settled
  rw [henclosing] at hsettled
  have hshape' := hshape
  simp only [Frame.shape, Prod.mk.injEq] at hshape'
  obtain ⟨hkind, -, hbranch, hresults⟩ := hshape'
  -- there is a scope to end, since every construct opens at least one
  obtain ⟨first, rest, rfl⟩ : ∃ first rest, inner = first :: rest := by
    cases inner with
    | nil => exact absurd hlen (Nat.ne_of_lt frame.kind.scopes_pos)
    | cons first rest => exact ⟨first, rest, rfl⟩
  obtain ⟨hjoined, hafter⟩ := h.sound.joined.reopen hscopes
  have hlines : (((b.withFrames outer frames).wrote 0 [.openElse]).inside frame').out.toList =
      b.out.toList ++ [Line.openElse] := by
    simp [Builder.withFrames, Builder.inside]
  have hscopes' : (((b.withFrames outer frames).wrote 0 [.openElse]).inside frame').scopes =
      ([] :: rest) ++ b₀.scopes := by
    rw [Builder.scopes, hlines, hafter]
    rfl
  have hmuts := Builder.muts_of_out hlines
  have hlen' : ([] :: rest : Scopes).length = frame'.kind.scopes := by
    rw [hkind]
    exact hlen
  refine ⟨⟨by rw [hlines]; exact hjoined,
    h.sound.fresh_of_out hlines (List.forall_mem_singleton.2 rfl), ?_, hsettled⟩, h.locals, ?_,
    fun x hx => hmuts x (h.muts x hx), _, hlen', hscopes'⟩
  · rw [hscopes']
    change Covers b.locals.length _ _ _
    rw [h.locals]
    rw [← hbranch, ← hresults] at htargets
    exact .cons hlen' (fun op hop x hx => (hstack op hop x hx).inside _)
      (fun x hx => ⟨(htargets x hx).1, fun n hn => hmuts x ((htargets x hx).2 n hn)⟩)
      (hcovers.mono hmuts)
  · rw [← hshapes.2]
    rfl

lemma Within.exists_outer (h : Within b₀ b frame) :
    ∃ outer frames, b.enclosing = outer :: frames := by
  have hshapes := h.shapes
  rw [Builder.frames, List.map_cons, List.cons.injEq] at hshapes
  cases henclosing : b.enclosing with
  | nil =>
    rw [henclosing] at hshapes
    cases hshapes.2
  | cons outer frames => exact ⟨outer, frames, rfl⟩

lemma takeResults_safe (h : Sound b) (types : List ValType) :
    Safe (takeResults types) b fun atoms b' => b'.Sees (atoms.flatMap Atom.names) := by
  intro atoms b' hrun
  rw [takeResults, bind_run_ok (get_run b)] at hrun
  split at hrun
  · exact popAtoms_safe h types atoms b' hrun
  · obtain ⟨found, b₁, -, hthrow⟩ := of_bind_run_ok hrun
    cases hthrow

lemma fallThrough_steps (h : Sound b) : Steps fallThrough b := by
  intro _ b' hrun
  rw [fallThrough, bind_run_ok (get_run b)] at hrun
  split at hrun
  · cases hrun
    exact ⟨.refl h, trivial⟩
  · obtain ⟨values, b₁, htake, hrest⟩ := of_bind_run_ok hrun
    obtain ⟨h₁, hvalues⟩ := takeResults_safe h _ values b₁ htake
    -- the results were taken off the stack, which leaves the targets as they are
    have hresults : b₁.current.results = b.current.results := by
      have hshapes := h₁.shapes
      rw [Builder.frames, Builder.frames, List.map_cons, List.map_cons, List.cons.injEq] at hshapes
      simp only [Frame.shape, Prod.mk.injEq] at hshapes
      exact hshapes.1.2.2.2
    rw [bind_run_ok (assignAll_run _ _)] at hrest
    have hassign : Progress b₁ (b₁.wrote 0 (assignLines b.current.results.vars values)) := by
      refine h₁.sound.wrote_quiet (h₁.sound.allows_assign
        (show b₁.current ∈ b₁.frames from List.mem_cons_self) (fun x hx => ?_) hvalues) ?_
      · rw [hresults]
        exact List.mem_append_right _ hx
      · unfold assignLines
        split <;> rfl
    change (if b.current.kind = .loop then emit (.breakTo b.current.label) else return ())
      (b₁.wrote 0 (assignLines b.current.results.vars values)) = _ at hrest
    split at hrest
    · have hbreak : Steps (emit (.breakTo b.current.label)) _ :=
        emit_steps hassign.sound (Builder.allows_bare rfl rfl rfl) rfl
      obtain ⟨h₂, -⟩ := hbreak () b' hrest
      exact ⟨(h₁.trans hassign).trans h₂, trivial⟩
    · cases hrest
      exact ⟨h₁.trans hassign, trivial⟩

lemma pushAllBound_steps (h : Sound b) {vars : List Name} (hvars : b.Sees vars)
    (types : List ValType) : Steps (pushAllBound vars types) b := by
  induction vars generalizing b types with
  | nil => exact .pure h trivial
  | cons x vars ih =>
    cases types with
    | nil => exact .pure h trivial
    | cons ty types =>
      have hx : b.Sees (Operand.mk (.bound x) ty).atom.names := by
        rw [Operand.names_bound]
        exact fun y hy => hvars y (by rw [List.mem_singleton.1 hy]; exact List.mem_cons_self)
      exact Safe.bind (pushOperand_steps h hx) fun _ _ h₁ _ =>
        ih h₁.sound (h₁.sees fun y hy => hvars y (List.mem_cons_of_mem _ hy)) types

/-- After the frame of a construct has been left, its scopes are closed and its results pushed. -/
lemma Within.close (h : Within b₀ b frame) (henclosing : b.enclosing = outer :: frames)
    (hrun : endConstruct false frame.kind.scopes frame.results (b.withFrames outer frames) =
      .ok () b') : Progress b₀ b' := by
  have hleave := h.leave henclosing
  have hresults : b₀.Sees frame.results.vars := fun x hx =>
    (h.covers.2 x (List.mem_append_right _ hx)).1
  rw [endConstruct, if_neg (by simp)] at hrun
  change (closeScopes frame.kind.scopes >>= fun _ => pushAllBound _ _) _ = _ at hrun
  rw [bind_run_ok (closeScopes_run _)] at hrun
  obtain ⟨hpush, -⟩ := pushAllBound_steps hleave.sound (hleave.sees hresults) _ () b' hrun
  exact hleave.trans hpush

/-- The end of a construct whose frame is still to be left. -/
lemma Within.finish (h : Within b₀ b frame)
    (hrun : endConstruct true frame.kind.scopes frame.results b = .ok () b') : Progress b₀ b' := by
  rw [endConstruct, if_pos rfl] at hrun
  obtain ⟨⟨⟩, b₁, hfall, hrest⟩ := of_bind_run_ok hrun
  have h₁ := h.progress (fallThrough_steps h.sound () b₁ hfall).1
  obtain ⟨outer, frames, henclosing⟩ := h₁.exists_outer
  rw [bind_run_ok (closeFrame_run henclosing)] at hrest
  refine h₁.close henclosing ?_
  rw [endConstruct, if_neg (by simp)]
  exact hrest

variable {m : Module} {ty : BlockType} {b₁ : Builder}

lemma eq_of_limitNesting (hrun : limitNesting b = .ok () b') : b' = b := by
  by_cases hdepth : b.depth < maxNesting
  · cases (limitNesting_run hdepth).symm.trans hrun
    rfl
  · cases (limitNesting_deep (Nat.le_of_not_lt hdepth)).symm.trans hrun

lemma eq_of_require {α : Type} {x : Except Error α} {a : α} (hrun : require x b = .ok a b') :
    b' = b := by
  cases x <;> cases hrun
  rfl

lemma openBlock_within (h : Sound b) {results : Target} (hrun : openBlock m ty b = .ok results b₁) :
    ∃ b₀ frame, Progress b b₀ ∧ Within b₀ b₁ frame ∧ frame.kind.scopes = 1 ∧
      frame.results = results := by
  rw [openBlock] at hrun
  obtain ⟨⟨⟩, c₁, hlimit, hrun⟩ := of_bind_run_ok hrun
  cases eq_of_limitNesting hlimit
  obtain ⟨sig, c₂, hsig, hrun⟩ := of_bind_run_ok hrun
  cases eq_of_require hsig
  obtain ⟨⟨⟩, c₃, hsettle, hrun⟩ := of_bind_run_ok hrun
  obtain ⟨params, c₄, hpop, hrun⟩ := of_bind_run_ok hrun
  obtain ⟨vars, c₅, hdeclare, hrun⟩ := of_bind_run_ok hrun
  rw [bind_run_ok newLabel_run, bind_run_ok (emit_run _), bind_run_ok (openFrame_run _ _ _ _ _),
    pure_run] at hrun
  cases hrun
  obtain ⟨hprepared, hsettled, hparams, hvars⟩ := h.prepare hsettle hpop hdeclare
  have hlabel : Progress c₅ c₅.labelled := hprepared.sound.of_same rfl rfl rfl rfl rfl rfl
  have hopener : c₅.labelled.Allows (.openBlock (.numbered c₅.nextLabel)) :=
    Builder.allows_bare rfl rfl rfl
  refine ⟨c₅.labelled, _, hprepared.trans hlabel, hlabel.sound.enter hsettled
    (List.forall_mem_singleton.2 hopener) rfl (fun op hop => ?_) (hlabel.declares hvars)
    (hlabel.declares hvars), rfl, rfl⟩
  exact hlabel.sees (hparams op (List.mem_reverse.1 hop))

lemma openLoop_within (h : Sound b) {results : Target} (hrun : openLoop m ty b = .ok results b₁) :
    ∃ b₀ frame, Progress b b₀ ∧ Within b₀ b₁ frame ∧ frame.kind.scopes = 1 ∧
      frame.results = results := by
  rw [openLoop] at hrun
  obtain ⟨⟨⟩, c₁, hlimit, hrun⟩ := of_bind_run_ok hrun
  cases eq_of_limitNesting hlimit
  obtain ⟨sig, c₂, hsig, hrun⟩ := of_bind_run_ok hrun
  cases eq_of_require hsig
  obtain ⟨⟨⟩, c₃, hsettle, hrun⟩ := of_bind_run_ok hrun
  obtain ⟨incoming, c₄, hpop, hrun⟩ := of_bind_run_ok hrun
  obtain ⟨vars, c₅, hdeclare, hrun⟩ := of_bind_run_ok hrun
  obtain ⟨hprepared, hsettled, hparams, hvars⟩ := h.prepare hsettle hpop hdeclare
  -- a branch to the loop assigns to copies of the parameters
  obtain ⟨hcopied, hcopies⟩ := hprepared.sound.wrote_copyLines hparams
  rw [bind_run_ok (declareParams_run incoming), bind_run_ok newLabel_run, bind_run_ok (emit_run _),
    bind_run_ok (openFrame_run _ _ _ _ _), pure_run, boundVars_freshOperands] at hrun
  cases hrun
  have hlabel : Progress (c₅.wrote incoming.length (copyLines c₅.nextVar incoming))
      (c₅.wrote incoming.length (copyLines c₅.nextVar incoming)).labelled :=
    hcopied.sound.of_same rfl rfl rfl rfl rfl rfl
  have hcopies' := hlabel.declares hcopies
  rw [← List.length_map Operand.ty] at hcopies'
  have hopener : (c₅.wrote incoming.length (copyLines c₅.nextVar incoming)).labelled.Allows
      (.openLoop (.numbered c₅.nextLabel)) := Builder.allows_bare rfl rfl rfl
  refine ⟨_, _, (hprepared.trans hcopied).trans hlabel, hlabel.sound.enter hsettled
    (List.forall_mem_singleton.2 hopener) rfl (fun op hop x hx => ?_) hcopies'
    ((hcopied.trans hlabel).declares hvars), rfl, rfl⟩
  exact hcopies'.1 x (names_freshOperands (List.mem_reverse.1 hop) x hx)

lemma openIf_within (h : Sound b) {hasElse : Bool} {arm : ElseArm}
    (hrun : openIf m ty hasElse b = .ok arm b₁) :
    ∃ b₀, Progress b b₀ ∧ Within b₀ b₁ arm.frame ∧ ∀ op ∈ arm.params, b₀.Sees op.atom.names := by
  rw [openIf] at hrun
  obtain ⟨⟨⟩, c₁, hlimit, hrun⟩ := of_bind_run_ok hrun
  cases eq_of_limitNesting hlimit
  obtain ⟨sig, c₂, hsig, hrun⟩ := of_bind_run_ok hrun
  cases eq_of_require hsig
  split at hrun
  · cases hrun
  · obtain ⟨cond, c₃, hcond, hrun⟩ := of_bind_run_ok hrun
    obtain ⟨⟨⟩, c₄, hsettle, hrun⟩ := of_bind_run_ok hrun
    obtain ⟨params, c₅, hpop, hrun⟩ := of_bind_run_ok hrun
    obtain ⟨vars, c₆, hdeclare, hrun⟩ := of_bind_run_ok hrun
    rw [bind_run_ok newLabel_run, bind_run_ok (emit_run _), bind_run_ok (emit_run _),
      bind_run_ok (openFrame_run _ _ _ _ _), pure_run, Builder.wrote_wrote] at hrun
    cases hrun
    obtain ⟨hpopped, hsees⟩ := popAtom_safe h .i32 cond c₃ hcond
    obtain ⟨hprepared, hsettled, hparams, hvars⟩ := hpopped.sound.prepare hsettle hpop hdeclare
    have hlabel : Progress c₆ c₆.labelled := hprepared.sound.of_same rfl rfl rfl rfl rfl rfl
    have hopeners : ∀ line ∈ [Line.openBlock (.numbered c₆.nextLabel)] ++ [.openIf cond],
        c₆.labelled.Allows line := by
      refine List.forall_mem_append.2
        ⟨List.forall_mem_singleton.2 (Builder.allows_bare rfl rfl rfl),
        List.forall_mem_singleton.2 (Builder.allows_of_read ?_ rfl rfl)⟩
      exact hlabel.sees (hprepared.sees hsees)
    have hsees' : ∀ op ∈ params, c₆.labelled.Sees op.atom.names :=
      fun op hop => hlabel.sees (hparams op hop)
    exact ⟨c₆.labelled, (hpopped.trans hprepared).trans hlabel, hlabel.sound.enter hsettled hopeners
      rfl (fun op hop => hsees' op (List.mem_reverse.1 hop)) (hlabel.declares hvars)
      (hlabel.declares hvars), hsees'⟩

end Constructs

/-! ### Instructions and sequences -/

mutual

/-- Lowering an instruction leads from a sound builder to a sound one. -/
lemma lowerInstr_steps (m : Module) (instr : Instr) {b : Builder} (h : Sound b) :
    Steps (lowerInstr m instr) b := by
  intro _ b' hrun
  cases instr with
  | block ty body =>
    rw [lowerInstr] at hrun
    obtain ⟨results, b₁, hopen, hrun⟩ := of_bind_run_ok hrun
    obtain ⟨⟨⟩, b₂, hbody, hend⟩ := of_bind_run_ok hrun
    obtain ⟨b₀, frame, hbefore, hwithin, hscopes, rfl⟩ := openBlock_within h hopen
    have hwithin₂ := hwithin.progress (lowerSeq_steps m body hwithin.sound () b₂ hbody).1
    rw [← hscopes] at hend
    exact ⟨hbefore.trans (hwithin₂.finish hend), trivial⟩
  | loop ty body =>
    rw [lowerInstr] at hrun
    obtain ⟨results, b₁, hopen, hrun⟩ := of_bind_run_ok hrun
    obtain ⟨⟨⟩, b₂, hbody, hend⟩ := of_bind_run_ok hrun
    obtain ⟨b₀, frame, hbefore, hwithin, hscopes, rfl⟩ := openLoop_within h hopen
    have hwithin₂ := hwithin.progress (lowerSeq_steps m body hwithin.sound () b₂ hbody).1
    rw [← hscopes] at hend
    exact ⟨hbefore.trans (hwithin₂.finish hend), trivial⟩
  | ifElse ty thenBody elseBody =>
    rw [lowerInstr] at hrun
    obtain ⟨arm, b₁, hopen, hrun⟩ := of_bind_run_ok hrun
    obtain ⟨⟨⟩, b₂, hthen, hrun⟩ := of_bind_run_ok hrun
    obtain ⟨⟨⟩, b₃, hend, hrun⟩ := of_bind_run_ok hrun
    obtain ⟨b₀, hbefore, hwithin, hparams⟩ := openIf_within h hopen
    have hwithin₂ := hwithin.progress (lowerSeq_steps m thenBody hwithin.sound () b₂ hthen).1
    -- the end of the first arm leaves its frame, but not its scopes
    rw [endThen] at hend
    obtain ⟨⟨⟩, c, hfall, hclose⟩ := of_bind_run_ok hend
    have hwithin₃ := hwithin₂.progress (fallThrough_steps hwithin₂.sound () c hfall).1
    obtain ⟨outer, frames, henclosing⟩ := hwithin₃.exists_outer
    cases (closeFrame_run henclosing).symm.trans hclose
    cases hneeds : needsElse elseBody arm.results with
    | false =>
      rw [hneeds] at hrun
      exact ⟨hbefore.trans (hwithin₃.close henclosing hrun), trivial⟩
    | true =>
      rw [hneeds, if_pos rfl, bind_run_ok (openElse_run arm)] at hrun
      obtain ⟨⟨⟩, b₄, helse, hend'⟩ := of_bind_run_ok hrun
      have hreopened : Within b₀ _ arm.frame := hwithin₃.reopen henclosing rfl
        fun op hop => hparams op (List.mem_reverse.1 hop)
      have hwithin₄ := hreopened.progress (lowerSeq_steps m elseBody hreopened.sound () b₄ helse).1
      exact ⟨hbefore.trans (hwithin₄.finish hend'), trivial⟩
  | _ =>
    simp only [lowerInstr] at hrun
    exact lowerSimple_steps h m _ () b' hrun

/-- Lowering a sequence leads from a sound builder to a sound one. -/
lemma lowerSeq_steps (m : Module) (body : List Instr) {b : Builder} (h : Sound b) :
    Steps (lowerSeq m body) b := by
  intro _ b' hrun
  cases body with
  | nil =>
    rw [lowerSeq, pure_run] at hrun
    cases hrun
    exact ⟨.refl h, trivial⟩
  | cons instr rest =>
    rw [lowerSeq, bind_run_ok (get_run b)] at hrun
    split at hrun
    · cases hrun
      exact ⟨.refl h, trivial⟩
    · obtain ⟨⟨⟩, b₁, hinstr, hrest⟩ := of_bind_run_ok hrun
      obtain ⟨h₁, -⟩ := lowerInstr_steps m instr h () b₁ hinstr
      obtain ⟨h₂, -⟩ := lowerSeq_steps m rest h₁.sound () b' hrest
      exact ⟨h₁.trans h₂, trivial⟩

end

/-! ### Functions -/

lemma endFunction_steps {b : Builder} (h : Sound b) : Steps endFunction b := by
  intro _ b' hrun
  rw [endFunction, bind_run_ok (get_run b)] at hrun
  split at hrun
  · cases hrun
    exact ⟨.refl h, trivial⟩
  · obtain ⟨values, b₁, htake, hout⟩ := of_bind_run_ok hrun
    obtain ⟨h₁, hvalues⟩ := takeResults_safe h _ values b₁ htake
    obtain ⟨h₂, -⟩ := branchOut_steps h₁.sound b.depth hvalues () b' hout
    exact ⟨h₁.trans h₂, trivial⟩

/-- The declarations of locals stand in the scope of the body. -/
lemma joined_declareLocals {locals : Nat} {lines : List Line}
    (h : ∀ line ∈ lines, ∃ index ty, index < locals ∧
      line = .bind true (.slot index) ty (.zero ty)) :
    Joined locals lines ∧ (∃ scope, scopesAfter lines = [scope]) ∧
      ∀ n, .temp n ∉ lines.flatMap Line.bound := by
  induction lines using List.reverseRecOn with
  | nil => exact ⟨joined_nil, ⟨[], rfl⟩, by simp⟩
  | append_singleton lines line ih =>
    obtain ⟨hjoined, ⟨scope, hscope⟩, hnone⟩ :=
      ih fun l hl => h l (List.mem_append_left _ hl)
    obtain ⟨index, ty, hindex, rfl⟩ := h line (List.mem_append_right _ List.mem_cons_self)
    have hscope' : scopesAfter (lines ++ [Line.bind true (.slot index) ty (.zero ty)]) =
        [.slot index :: scope] := by
      rw [scopesAfter_concat, hscope]
      rfl
    refine ⟨hjoined.concat ⟨nofun, nofun, ?_, by simp [Line.bound], ?_⟩, ⟨_, hscope'⟩, ?_⟩
    · intro x hx
      cases List.mem_singleton.1 hx
      exact hindex
    · rw [← scopesAfter_concat, hscope']
      exact List.cons_ne_nil _ _
    · intro n hn
      rw [List.flatMap_append, List.mem_append] at hn
      rcases hn with hn | hn
      · exact hnone n hn
      · simp [Line.bound] at hn

variable {m : Module} {func : FuncDef} {type : FuncType}

lemma sound_functionStart :
    Sound (functionStart func type) ∧ ∃ scope, (functionStart func type).scopes = [scope] := by
  have hlines : ∀ line ∈ (functionStart func type).out.toList, ∃ index ty,
      index < (functionStart func type).locals.length ∧
        line = .bind true (.slot index) ty (.zero ty) := by
    intro line hline
    obtain ⟨p, hp, rfl⟩ := List.mem_map.1 hline
    refine ⟨p.2, p.1, ?_, rfl⟩
    have hlt := (List.mem_zipIdx hp).2.1
    change p.2 < (type.params ++ func.locals).length
    rw [List.length_append]
    omega
  obtain ⟨hjoined, ⟨scope, hscope⟩, hnone⟩ := joined_declareLocals hlines
  refine ⟨⟨hjoined, fun n hn => absurd hn (hnone n), ?_, List.forall_mem_nil _⟩, scope, hscope⟩
  rw [Builder.scopes, hscope]
  exact @Covers.cons _ _ _ [] [scope] [] rfl (List.forall_mem_nil _) (List.forall_mem_nil _) .nil

/-- The variables of every function that is lowered are well scoped, valid or not. -/
theorem lowerFunction_wellScoped {position : Nat} {method : Method}
    (h : lowerFunction m position = .ok method) :
    ∃ func type, m.functions[position]? = some func ∧ m.types[func.type]? = some type ∧
      WellScoped (type.params.length + func.locals.length) method.body := by
  obtain ⟨func, type, b, hfunc, htype, hrun, rfl⟩ := lowerFunction_eq_ok_iff.1 h
  refine ⟨func, type, hfunc, htype, ?_⟩
  obtain ⟨⟨⟩, b₁, hbody, hend⟩ := of_bind_run_ok hrun
  obtain ⟨hstart, scope, hscope⟩ := @sound_functionStart func type
  obtain ⟨h₁, -⟩ := lowerSeq_steps m func.body hstart () b₁ hbody
  obtain ⟨h₂, -⟩ := endFunction_steps h₁.sound () b hend
  have hprogress := h₁.trans h₂
  have hlocals : b.locals.length = type.params.length + func.locals.length := by
    rw [hprogress.locals, ← List.length_append]
    rfl
  obtain ⟨_, _, new, hbefore, hafter⟩ := hprogress.scopes
  rw [hscope] at hbefore
  cases hbefore
  rw [← hlocals]
  refine hprogress.sound.joined.wellScoped ?_
  change b.scopes.length = 1
  rw [hafter]
  rfl

/-! A function with a block that takes an operand from outside, which no valid function does. -/

/-- `local.get 0 local.get 0 i32.add block local.set 0 end`, with one parameter. -/
def reachOut : FuncDef where
  type := 0
  locals := []
  body := [.localGet 0, .localGet 0, .binary .i32 .add, .block .empty [.localSet 0]]

/-- The module of this one function. -/
def reachModule : Module :=
  { types := [{ params := [.i32], results := [] }], functions := [reachOut] }

/-- The lines of the function: the block assigns what was computed in front of it. -/
def reachLines : List Line :=
  [.bind false (.temp 0) .i32 (.binary .i32 .add (.name (.slot 0)) (.name (.slot 0))),
    .openBlock (.numbered 0), .assign [.slot 0] [.name (.temp 0)], .close, .returnOk []]

theorem lowerFunction_wellScoped_reachOut :
    lowerFunction reachModule 0 = .ok ⟨0, { params := [.i32], results := [] }, reachLines⟩ ∧
      WellScoped 1 reachLines := by
  have hmethod : lowerFunction reachModule 0 =
      .ok ⟨0, { params := [.i32], results := [] }, reachLines⟩ := by
    decide +kernel
  obtain ⟨func, type, hfunc, htype, hscoped⟩ := lowerFunction_wellScoped hmethod
  cases hfunc
  cases htype
  exact ⟨hmethod, hscoped⟩

end WasmAot.Lowering
