/-
# Operands are in scope

What holds of a builder at every point of a body, typed or not.  Each frame owns the scopes that
were opened for it.  Its operands read variables of these scopes and of those around them, so they
can be used in the frame and, since a pop goes on into the enclosing frames, everywhere inside of
it; the variables of its results were declared outside of it (`Covers`).  Operations in a frame only
add to its innermost scope (`Progress`).
-/
import WasmAot.Proofs.Lowering.Constructs
import WasmAot.Proofs.Scoping.Lines

namespace WasmAot.Lowering

open Code Stateful

/-! ### Frames and scopes -/

/-- How many scopes are open for a frame. -/
def FrameKind.scopes : FrameKind → Nat
  | .ifArm => 2
  | _ => 1

/-- What stays the same of a frame while its body is lowered. -/
def Frame.shape (frame : Frame) : FrameKind × Label × Target × Target :=
  (frame.kind, frame.label, frame.branch, frame.results)

/-- Each frame has its scopes, its operands can be read there, and its variables were declared
outside with `let mut`. -/
inductive Covers (locals : Nat) (muts : List Name) : List Frame → Scopes → Prop
  | nil : Covers locals muts [] []
  | cons {frame : Frame} {frames : List Frame} {inner outer : Scopes}
      (hinner : inner.length = frame.kind.scopes)
      (hoperands : ∀ op ∈ frame.stack, ∀ x ∈ op.atom.names, Known locals (inner ++ outer) x)
      (htargets : ∀ x ∈ frame.branch.vars ++ frame.results.vars,
        Known locals outer x ∧ ∀ n, x = .temp n → x ∈ muts)
      (houter : Covers locals muts frames outer) :
      Covers locals muts (frame :: frames) (inner ++ outer)

namespace Covers

variable {locals : Nat} {muts muts' : List Name} {frame frame' : Frame} {frames : List Frame}
  {scopes : Scopes}

lemma exists_scope (h : Covers locals muts (frame :: frames) scopes) :
    ∃ scope outer, scopes = scope :: outer := by
  cases h with
  | @cons _ _ inner outer hinner _ _ _ =>
    cases inner with
    | nil => cases hkind : frame.kind <;> rw [hkind] at hinner <;> cases hinner
    | cons scope inner => exact ⟨scope, inner ++ outer, rfl⟩

lemma mono (h : Covers locals muts frames scopes) (hsub : ∀ x ∈ muts, x ∈ muts') :
    Covers locals muts' frames scopes := by
  induction h with
  | nil => exact .nil
  | cons hinner hoperands htargets _ ih =>
    exact .cons hinner hoperands
      (fun x hx => ⟨(htargets x hx).1, fun n hn => hsub x ((htargets x hx).2 n hn)⟩) ih

/-- Frames and their scopes stay in step when the innermost scope grows. -/
lemma grow {scope : List Name} {outer : Scopes} (h : Covers locals muts frames (scope :: outer))
    (new : List Name) : Covers locals muts frames ((new ++ scope) :: outer) := by
  generalize hscopes : scope :: outer = scopes at h
  cases h with
  | nil => cases hscopes
  | @cons frame _ inner around hinner hoperands htargets houter =>
    cases inner with
    | nil => cases hkind : frame.kind <;> rw [hkind] at hinner <;> cases hinner
    | cons _ inner =>
      cases hscopes
      refine @Covers.cons _ _ _ _ ((new ++ scope) :: inner) _ hinner (fun op hop x hx => ?_) htargets
        houter
      refine (hoperands op hop x hx).mono fun y hy => ?_
      rw [List.cons_append, List.flatten_cons, List.append_assoc]
      exact List.mem_append_right new hy

/-- Other operands in the innermost frame. -/
lemma replace (h : Covers locals muts (frame :: frames) scopes) (hshape : frame'.shape = frame.shape)
    (hoperands : ∀ op ∈ frame'.stack, ∀ x ∈ op.atom.names, Known locals scopes x) :
    Covers locals muts (frame' :: frames) scopes := by
  simp only [Frame.shape, Prod.mk.injEq] at hshape
  obtain ⟨hkind, -, hbranch, hresults⟩ := hshape
  cases h with
  | cons hinner _ htargets houter =>
    refine .cons (by rw [hkind]; exact hinner) hoperands ?_ houter
    rw [hbranch, hresults]
    exact htargets

lemma known_of_mem (h : Covers locals muts frames scopes) {op : Operand}
    (hop : op ∈ frames.flatMap Frame.stack) : ∀ x ∈ op.atom.names, Known locals scopes x := by
  induction h with
  | nil => simp at hop
  | cons hinner hoperands _ _ ih =>
    rw [List.flatMap_cons, List.mem_append] at hop
    intro x hx
    rcases hop with hop | hop
    · exact hoperands op hop x hx
    · exact (ih hop x hx).inside _

lemma drop (h : Covers locals muts frames scopes) (n : Nat) :
    Covers locals muts (dropOperands n frames) scopes := by
  induction h generalizing n with
  | nil => exact .nil
  | cons hinner hoperands htargets _ ih =>
    exact .cons hinner (fun op hop => hoperands op (List.mem_of_mem_drop hop)) htargets (ih _)

end Covers

/-! ### Builders -/

/-- The scopes around the next line. -/
def Builder.scopes (b : Builder) : Scopes :=
  scopesAfter b.out.toList

/-- The variables that were introduced with `let mut`. -/
def Builder.muts (b : Builder) : List Name :=
  b.out.toList.flatMap Line.boundMut

/-- The variables may be read by the next line. -/
def Builder.Sees (b : Builder) (names : List Name) : Prop :=
  ∀ x ∈ names, Known b.locals.length b.scopes x

/-- The lines so far and the operands are well scoped. -/
structure Sound (b : Builder) : Prop where
  joined : Joined b.locals.length b.out.toList
  fresh : ∀ n, .temp n ∈ b.out.toList.flatMap Line.bound → n < b.nextVar
  covers : Covers b.locals.length b.muts b.frames b.scopes
  settled : Settled b.enclosing

/-- The second builder is later than the first one in the same frames. -/
structure Progress (b b' : Builder) : Prop where
  sound : Sound b'
  locals : b'.locals = b.locals
  shapes : b'.frames.map Frame.shape = b.frames.map Frame.shape
  muts : ∀ x ∈ b.muts, x ∈ b'.muts
  scopes : ∃ scope outer new, b.scopes = scope :: outer ∧ b'.scopes = (new ++ scope) :: outer

namespace Progress

variable {b b' b'' : Builder}

lemma refl (h : Sound b) : Progress b b := by
  obtain ⟨scope, outer, hscopes⟩ := h.covers.exists_scope
  exact ⟨h, rfl, rfl, fun _ hx => hx, scope, outer, [], hscopes, hscopes⟩

lemma trans (h : Progress b b') (h' : Progress b' b'') : Progress b b'' := by
  obtain ⟨scope, outer, new, hscopes, hnew⟩ := h.scopes
  obtain ⟨scope', outer', new', hscopes', hnew'⟩ := h'.scopes
  rw [hnew] at hscopes'
  cases hscopes'
  exact ⟨h'.sound, h'.locals.trans h.locals, h'.shapes.trans h.shapes,
    fun x hx => h'.muts x (h.muts x hx), scope, outer, new' ++ new, hscopes,
    by rw [hnew', List.append_assoc]⟩

lemma sees (h : Progress b b') {names : List Name} (hnames : b.Sees names) : b'.Sees names := by
  obtain ⟨scope, outer, new, hscopes, hnew⟩ := h.scopes
  intro x hx
  have hx' := hnames x hx
  rw [h.locals]
  refine hx'.mono fun y hy => ?_
  rw [hscopes] at hy
  rw [hnew, List.flatten_cons, List.append_assoc]
  exact List.mem_append_right new hy

end Progress

section Steps

variable {b b' : Builder} {line : Line} {lines : List Line}

lemma Sound.scopes_ne_nil (h : Sound b) : b.scopes ≠ [] := by
  obtain ⟨scope, outer, hscopes⟩ := h.covers.exists_scope
  rw [hscopes]
  exact List.cons_ne_nil scope outer

/-- More lines take no `let mut` away. -/
lemma Builder.muts_of_out (hout : b'.out.toList = b.out.toList ++ lines) :
    ∀ x ∈ b.muts, x ∈ b'.muts := by
  intro x hx
  rw [Builder.muts, hout, List.flatMap_append]
  exact List.mem_append_left _ hx

/-- After lines that introduce nothing, the numbers from the next one on are still free. -/
lemma Sound.fresh_of_out (h : Sound b) (hout : b'.out.toList = b.out.toList ++ lines)
    (hbound : ∀ line ∈ lines, line.bound = []) :
    ∀ n, .temp n ∈ b'.out.toList.flatMap Line.bound → n < b.nextVar := by
  intro n hn
  rw [hout, List.flatMap_append, List.mem_append] at hn
  rcases hn with hn | hn
  · exact h.fresh n hn
  · obtain ⟨line, hline, hmem⟩ := List.mem_flatMap.1 hn
    rw [hbound line hline] at hmem
    cases hmem

/-- A line that introduces new variables. -/
lemma Sound.wrote_bind (h : Sound b) {vars : Nat} {text : String}
    (hlayout : line.layout = .plain text) (hbound : line.bound = temps b.nextVar vars)
    (hassigned : line.assigned = []) (hread : b.Sees line.read) :
    Progress b (b.wrote vars [line]) ∧ (b.wrote vars [line]).Sees line.bound := by
  obtain ⟨scope, outer, hscopes⟩ := h.covers.exists_scope
  have hlines : (b.wrote vars [line]).out.toList = b.out.toList ++ [line] := by simp
  have hscopes' : (b.wrote vars [line]).scopes = (line.bound ++ scope) :: outer := by
    rw [Builder.scopes, hlines, scopesAfter_concat]
    change enter b.scopes line = _
    rw [hscopes, enter_plain hlayout]
  have hmuts := Builder.muts_of_out hlines
  -- the new variables have numbers that no line has used so far
  have hjoins : Joins b.locals.length b.out.toList line := by
    refine ⟨hread, by simp [hassigned], fun x hx => ?_, hbound ▸ nodup_temps _ _, ?_⟩
    · rw [hbound, mem_temps] at hx
      obtain ⟨n, hle, -, rfl⟩ := hx
      exact fun hmem => absurd (h.fresh n hmem) (Nat.not_lt.2 hle)
    · change enter b.scopes line ≠ []
      rw [hscopes, enter_plain hlayout]
      exact List.cons_ne_nil _ _
  have hsound : Sound (b.wrote vars [line]) := by
    refine ⟨by rw [hlines]; exact h.joined.concat hjoins, fun n hn => ?_, ?_, h.settled⟩
    · rw [hlines, List.flatMap_append, List.mem_append, List.flatMap_singleton, hbound,
        mem_temps] at hn
      rcases hn with hn | ⟨k, -, hlt, heq⟩
      · exact Nat.lt_of_lt_of_le (h.fresh n hn) (Nat.le_add_right _ _)
      · cases heq
        exact hlt
    · have hcovers := h.covers
      rw [hscopes] at hcovers
      rw [hscopes']
      exact (hcovers.grow line.bound).mono hmuts
  refine ⟨⟨hsound, rfl, rfl, hmuts, scope, outer, line.bound, hscopes, hscopes'⟩, fun x hx => ?_⟩
  rw [hscopes']
  have hmem : x ∈ ((line.bound ++ scope) :: outer).flatten :=
    List.mem_append_left _ (List.mem_append_left _ hx)
  rw [hbound, mem_temps] at hx
  obtain ⟨n, -, -, rfl⟩ := hx
  exact hmem

/-- Lines that introduce nothing and close what they open. -/
lemma Sound.wrote_quiet (h : Sound b)
    (hquiet : ∀ line ∈ lines, Quiet b.locals.length b.scopes b.muts line)
    (hdepth : depthAfter 0 lines = some 0) : Progress b (b.wrote 0 lines) := by
  obtain ⟨scope, outer, hscopes⟩ := h.covers.exists_scope
  have hlines : (b.wrote 0 lines).out.toList = b.out.toList ++ lines := by simp
  obtain ⟨hjoined, hafter⟩ := h.joined.append (d := 0) rfl h.scopes_ne_nil hquiet hdepth
  have hscopes' : (b.wrote 0 lines).scopes = b.scopes := by
    rw [Builder.scopes, hlines, hafter]
    rfl
  have hmuts := Builder.muts_of_out hlines
  have hsound : Sound (b.wrote 0 lines) := by
    refine ⟨by rw [hlines]; exact hjoined,
      h.fresh_of_out hlines fun line hline => (hquiet line hline).bound, ?_, h.settled⟩
    rw [hscopes']
    exact h.covers.mono hmuts
  exact ⟨hsound, rfl, rfl, hmuts, scope, outer, [], hscopes, hscopes'.trans hscopes⟩

/-- Other operands in the innermost frame. -/
lemma Sound.withStack (h : Sound b) {stack : List Operand}
    (hstack : ∀ op ∈ stack, b.Sees op.atom.names) : Progress b (b.withStack stack) := by
  obtain ⟨scope, outer, hscopes⟩ := h.covers.exists_scope
  have hcovers : Covers b.locals.length b.muts (b.withStack stack).frames b.scopes :=
    h.covers.replace rfl hstack
  exact ⟨⟨h.joined, h.fresh, hcovers, h.settled⟩, rfl, rfl, fun _ hx => hx, scope, outer, [], hscopes,
    hscopes⟩

/-- Changes that concern neither lines nor operands. -/
lemma Sound.of_same (h : Sound b) (hlocals : b'.locals = b.locals)
    (hout : b'.out = b.out) (hvars : b'.nextVar = b.nextVar)
    (hcurrent : b'.current.shape = b.current.shape) (hstack : b'.current.stack = b.current.stack)
    (henclosing : b'.enclosing = b.enclosing) : Progress b b' := by
  obtain ⟨scope, outer, hscopes⟩ := h.covers.exists_scope
  have hscopes' : b'.scopes = b.scopes := by rw [Builder.scopes, hout, Builder.scopes]
  have hmuts : b'.muts = b.muts := by rw [Builder.muts, hout, Builder.muts]
  have hcovers : Covers b.locals.length b.muts b'.frames b.scopes := by
    rw [Builder.frames, henclosing]
    refine h.covers.replace hcurrent fun op hop => ?_
    rw [hstack] at hop
    exact h.covers.known_of_mem (List.mem_flatMap.2 ⟨b.current, List.mem_cons_self, hop⟩)
  refine ⟨⟨?_, ?_, ?_, ?_⟩, hlocals, ?_, ?_, scope, outer, [], hscopes, hscopes'.trans hscopes⟩
  · rw [hlocals, hout]
    exact h.joined
  · rw [hout, hvars]
    exact h.fresh
  · rw [hlocals, hmuts, hscopes']
    exact hcovers
  · rw [henclosing]
    exact h.settled
  · rw [Builder.frames, Builder.frames, List.map_cons, List.map_cons, hcurrent, henclosing]
  · rw [hmuts]
    exact fun _ hx => hx

end Steps

end WasmAot.Lowering
