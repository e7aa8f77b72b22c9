/-
# Bodies

A typed body of integer instructions is lowered to lines that do what it does.  The proof follows
the typing derivation: single instructions are those of the file before, a construct runs the lines
of its body in a scope of its own, and a sequence runs its parts one after the other.
-/
import WasmAot.Proofs.Simulation.Scopes

namespace WasmAot.Lowering

open Code Host Semantics Stateful Validation

variable {C : Context} {b b' : Builder}

/-- The operation that led from one builder to the other has written what the evaluation does. -/
def Realizes (b b' : Builder) (eval : Nat → List Value → List Value → Flow) : Prop :=
  ∃ trees, Translates b b' trees eval

/-! ### Instructions that own no others -/

lemma lowerSimple_realizes {instr : Instr} {below before after : List ValType}
    (hintegral : instr.integral = true) (hinstr : Simple C instr before after)
    (h : Ready C b (below ++ before)) (hground : Grounded b)
    (hrun : lowerSimple C.module instr b = .ok () b') :
    Realizes b b' fun _ => evalSimple b.arities instr := by
  cases hinstr with
  | nop =>
    cases hrun
    exact ⟨_, translates_silent h.reachable fun _ locals stack env hrel =>
      ⟨stack, rfl, hrel.operands⟩⟩
  | brIf hlabel =>
    obtain ⟨exit, hexit, rfl⟩ := h.exit hlabel
    obtain ⟨top, rest, hstack, htop, -⟩ := h.split
    rw [List.reverse_append] at htop
    obtain ⟨cond, values, rfl, hcond, hvalues⟩ := List.map_eq_cons_iff.1 htop
    cases (lowerBrIf_run hexit hstack hcond hvalues).symm.trans hrun
    exact ⟨_, translates_brIf h.reachable hground hexit hstack hcond hvalues⟩
  | drop ty =>
    obtain ⟨op, rest, hstack, -, -⟩ := h.split_last
    rw [lowerSimple, bind_run_ok (popOperand_run hstack), pure_run] at hrun
    cases hrun
    exact ⟨_, translates_drop h.reachable hstack⟩
  | select hnum =>
    obtain ⟨cond, second, first, rest, hstack, hcond, hsecond, hfirst, -⟩ := h.split_choice
    cases (lowerSelect_run hstack hcond hfirst hsecond rfl).symm.trans hrun
    exact ⟨_, translates_select h.reachable hstack hcond hfirst hsecond⟩
  | selectOf ty =>
    obtain ⟨cond, second, first, rest, hstack, hcond, hsecond, hfirst, -⟩ := h.split_choice
    cases (lowerSelect_run hstack hcond hfirst hsecond rfl).symm.trans hrun
    exact ⟨_, translates_select h.reachable hstack hcond hfirst hsecond⟩
  | localGet hlocal =>
    rw [← h.locals] at hlocal
    cases (getLocal_run hlocal).symm.trans hrun
    exact ⟨_, translates_localGet h.reachable hlocal⟩
  | localSet hlocal =>
    obtain ⟨op, rest, hstack, hty, -⟩ := h.split_last
    rw [← h.locals] at hlocal
    rw [lowerSimple, bind_run_ok (setLocal_run hlocal h.settled hstack hty), pure_run] at hrun
    cases hrun
    exact ⟨_, translates_localSet h.reachable hlocal hstack hty⟩
  | localTee hlocal =>
    obtain ⟨op, rest, hstack, hty, -⟩ := h.split_last
    rw [← h.locals] at hlocal
    cases (teeLocal_run hlocal h.settled hstack hty).symm.trans hrun
    exact ⟨_, translates_localTee h.reachable hlocal hstack hty⟩
  | i32Const value =>
    cases hrun
    exact ⟨_, translates_literal h.reachable (.i32 value) (.i32 value) (fun _ _ => rfl)
      fun _ => rfl⟩
  | i64Const value =>
    cases hrun
    exact ⟨_, translates_literal h.reachable (.i64 value) (.i64 value) (fun _ _ => rfl)
      fun _ => rfl⟩
  | compare hopcode =>
    obtain ⟨second, first, rest, hstack, hsecond, hfirst, -⟩ := h.split_two
    have hdefined := operatorDefined_of_mem hopcode
    cases (lowerCompare_run hdefined hstack hfirst hsecond).symm.trans hrun
    exact ⟨_, translates_compare h.reachable hintegral hdefined hstack hfirst hsecond⟩
  | @eqz ty hopcode =>
    obtain ⟨first, rest, hstack, hfirst, -⟩ := h.split_last
    have hdefined : UnOp.eqz.definedFor ty = true := operatorDefined_of_mem hopcode
    cases (lowerUnary_run hdefined hstack hfirst).symm.trans hrun
    exact ⟨_, translates_unary h.reachable hintegral hdefined hstack hfirst⟩
  | unary hopcode =>
    obtain ⟨first, rest, hstack, hfirst, -⟩ := h.split_last
    have hdefined := operatorDefined_of_mem hopcode
    cases (lowerUnary_run hdefined hstack hfirst).symm.trans hrun
    exact ⟨_, translates_unary h.reachable hintegral hdefined hstack hfirst⟩
  | binary hopcode =>
    obtain ⟨second, first, rest, hstack, hsecond, hfirst, -⟩ := h.split_two
    have hdefined := operatorDefined_of_mem hopcode
    cases (lowerBinary_run hdefined hstack hfirst hsecond).symm.trans hrun
    exact ⟨_, translates_binary h.reachable hintegral hdefined hstack hfirst hsecond⟩
  | _ => simp only [Instr.integral, Bool.false_eq_true] at hintegral

lemma lowerBr_realizes {below label : List ValType} {depth : Nat}
    (hlabel : C.labels[depth]? = some label) (h : Ready C b (below ++ label)) (hground : Grounded b)
    (hrun : lowerBr depth b = .ok () b') :
    Realizes b b' fun _ locals stack => branchTo b.arities depth locals stack := by
  obtain ⟨exit, hexit, rfl⟩ := h.exit hlabel
  obtain ⟨top, rest, hstack, htop, -⟩ := h.split
  cases (lowerBr_run hexit hstack htop).symm.trans hrun
  exact ⟨_, translates_br hground hexit hstack htop⟩

lemma lowerTransfer_realizes {instr : Instr} {below given : List ValType}
    (hinstr : Transfer C instr (given.map some)) (h : Ready C b (below ++ given))
    (hground : Grounded b) (hrun : lowerSimple C.module instr b = .ok () b') :
    Realizes b b' fun _ => evalSimple b.arities instr := by
  generalize hoperands : given.map some = operands at hinstr
  cases hinstr with
  | unreachable =>
    cases hrun
    exact ⟨_, translates_unreachable⟩
  | br hlabel hgiven =>
    subst hoperands
    rw [fits_map_some hgiven] at hlabel
    exact lowerBr_realizes hlabel h hground hrun
  | brTable hselector htargets =>
    obtain ⟨label, selector', rfl, rfl, hlast⟩ := List.map_eq_append_iff.1 hoperands
    obtain ⟨ty, rfl, rfl⟩ := List.map_eq_singleton_iff.1 hlast
    cases fits_some hselector
    have hlabels := labels_of_fits htargets
    obtain ⟨exit, hexit, rfl⟩ := h.exit (hlabels _ List.mem_cons_self)
    have hothers := fun depth hdepth => h.exit (hlabels depth (List.mem_cons_of_mem _ hdepth))
    obtain ⟨top, rest, hstack, htop, -⟩ := h.split
    rw [List.reverse_append] at htop
    obtain ⟨selector, values, rfl, hty, hvalues⟩ := List.map_eq_cons_iff.1 htop
    cases (lowerBrTable_run hexit hothers hstack hty hvalues).symm.trans hrun
    exact ⟨_, translates_brTable hground hexit hothers hstack hty hvalues⟩
  | ret hgiven =>
    subst hoperands
    have hlabel := h.function
    rw [fits_map_some hgiven] at hlabel
    -- the function is the last of the labels
    have hret : ∀ locals stack, evalSimple b.arities .ret locals stack =
        branchTo b.arities b.depth locals stack := by
      intro locals stack
      rw [evalSimple, Builder.arities, List.length_map, length_exits, Nat.add_sub_cancel]
    obtain ⟨trees, htrees⟩ := lowerBr_realizes hlabel h hground hrun
    exact ⟨trees, htrees.emitted, htrees.vars, htrees.labels, fun fuel locals stack env hrel => by
      rw [hret]
      exact htrees.follows fuel locals stack env hrel⟩

/-! ### Constructs -/

/-- The lines of a lowered body do what the body does. -/
def Preserves (C : Context) (body : List Instr) (given : List ValType) : Prop :=
  ∀ b b', Ready C b given → Grounded b → lowerSeq C.module body b = .ok () b' →
    Realizes b b' fun fuel => evalSeq C.module fuel b.arities body

section Constructs

variable {sig : FuncType} {ty : BlockType} {below : List ValType} {body : List Instr}
  {n : Nat} {types : List ValType} {frame : Frame} {b₀ b₂ : Builder} {rest : List Operand}
  {base env env₁ : Env} {locals values stack belowValues : List Value}

/-- A stack with the parameters of a construct on top is high enough for the construct. -/
lemma Rel.length_le {params : List ValType} (hrel : Rel b locals stack env)
    (h : Ready C b (below ++ params)) : params.length ≤ stack.length := by
  have hlen := congrArg List.length h.stack
  rw [List.length_map, hrel.operands.length_eq, List.length_reverse, List.length_append] at hlen
  omega

/-- The body of a construct, with the lines at its end, does what the body does. -/
lemma Inner.finishes {trees : List Tree} {eval : Nat → List Value → List Value → Flow}
    (h : Inner C body types (b₀.inside frame) b₂)
    (htrees : Translates (b₀.inside frame) b₂ trees eval)
    (hresults : frame.results = ⟨temps n types.length, types⟩)
    (hrel : Rel (b₀.inside frame) locals values env₁)
    (hsome : ∀ k, .temp k ∈ temps n types.length → (env₁ (.temp k)).isSome) (fuel : Nat) :
    Finishes (b₀.inside frame) env₁ (eval fuel locals values)
      (execAll fuel (trees ++ leaves (fallLines b₂.current)) env₁) := by
  have htypes : types = frame.results.types := by rw [hresults]
  have hfinished : b₂.current.Finished := (htypes ▸ h.ends).finished
  rw [execAll_append]
  refine (htrees.follows fuel locals values env₁ hrel).finishes h.ends.keeps hfinished n ?_ ?_
  · change frame.results.vars = temps n frame.results.types.length
    rw [hresults]
  · change ∀ k, .temp k ∈ frame.results.vars → (env₁ (.temp k)).isSome
    rw [hresults]
    exact hsome

lemma BlockLowered.realizes (hlowered : BlockLowered C body sig below b b')
    (hsig : C.module.signature? ty = some sig) (h : Ready C b (below ++ sig.params))
    (hground : Grounded b) (hbody : Preserves (C.inside sig.results) body sig.params) :
    Realizes b b' fun fuel => evalInstr C.module fuel b.arities (.block ty body) := by
  obtain ⟨top, rest, b₂, hsplit, hinner, rfl⟩ := hlowered
  have hground₁ : Grounded (b.blockStart sig top rest) :=
    hground.inside rfl rfl (Nat.lt_succ_self _) ⟨_, rfl⟩
  obtain ⟨trees, htrees⟩ := hbody _ b₂ (h.blockStart hsplit) hground₁ hinner.run
  obtain ⟨lines, hout, hparses⟩ := htrees.emitted
  have hopened : Opened b (b.blockStart sig top rest) (b.nextVar + b.settling.length) sig.results :=
    ⟨rfl, rfl, rfl, (show FrameKind.block ≠ .function by decide), rfl⟩
  have hscope := (hparses.append (.ofLeaves (plain_fallLines b₂.current))).scope
    (show (Line.openBlock (.numbered b.nextLabel)).opens = true from rfl)
  have hentering := Parses.ofLeaves
    (plain_entering b (b.nextVar + b.settling.length) sig.results)
  refine ⟨_, ⟨_, ?_, hentering.append hscope⟩, ?_, ?_, ?_⟩
  · simp only [Builder.resume, Builder.wrote, Builder.withFrames, hout, Builder.blockStart,
      Builder.inside, Builder.labelled, Builder.withStack]
    simp [Array.append_assoc]
  · exact Nat.le_trans (Nat.le_add_right _ _) htrees.vars
  · exact Nat.le_trans (Nat.le_succ _) htrees.labels
  · intro fuel locals stack env hrel
    obtain ⟨base, env₁, hrun, hext, hfresh, htop, hbase, hentered⟩ :=
      exists_entered hrel hsplit sig.results
    have hrel₁ : Rel (b.blockStart sig top rest) locals (stack.take sig.params.length) env₁ :=
      hrel.inside hext rfl rfl rfl (hfresh.mono (Nat.le_of_eq (Nat.add_assoc _ _ _))) htop
        hentered.results
    have hfinishes := hinner.finishes htrees rfl hrel₁ hentered.results fuel
    rw [execAll_next (hrun fuel), execAll_singleton]
    simp only [evalInstr, evalConstruct, hsig, if_pos (hrel.length_le h)]
    exact hfinishes.leaveBlock hopened (show FrameKind.block ≠ .loop by decide) rfl hrel₁
      hentered hground h.reachable hbase htrees.vars hinner.ends.keeps.locals _

lemma LoopLowered.realizes (hlowered : LoopLowered C body sig below b b')
    (hsig : C.module.signature? ty = some sig) (h : Ready C b (below ++ sig.params))
    (hground : Grounded b) (hbody : Preserves (C.inside sig.params) body sig.params) :
    Realizes b b' fun fuel => evalInstr C.module fuel b.arities (.loop ty body) := by
  obtain ⟨top, rest, b₂, hsplit, hinner, rfl⟩ := hlowered
  have hground₁ : Grounded (b.loopStart sig top rest) :=
    hground.inside rfl rfl (Nat.lt_succ_self _) ⟨_, rfl⟩
  obtain ⟨trees, htrees⟩ := hbody _ b₂ (h.loopStart hsplit) hground₁ hinner.run
  obtain ⟨lines, hout, hparses⟩ := htrees.emitted
  have hopened : Opened b (b.loopStart sig top rest) (b.nextVar + b.settling.length) sig.results :=
    ⟨rfl, rfl, rfl, (show FrameKind.loop ≠ .function by decide), rfl⟩
  have hlooping : Looping (b.loopStart sig top rest) (b.firstParam sig) sig.params :=
    ⟨rfl, rfl, rfl⟩
  have hfirst : b.nextVar + b.settling.length + sig.results.length = b.firstParam sig :=
    Nat.add_assoc _ _ _
  have hscope := (hparses.append (.ofLeaves (plain_fallLines b₂.current))).scope
    (show (Line.openLoop (.numbered b.nextLabel)).opens = true from rfl)
  have hentering := Parses.ofLeaves
    (plain_entering b (b.nextVar + b.settling.length) sig.results)
  have hcopying := Parses.ofLeaves (@plain_copyLines (b.firstParam sig) top.reverse)
  refine ⟨_, ⟨_, ?_, hentering.append (hcopying.append hscope)⟩, ?_, ?_, ?_⟩
  · simp only [Builder.resume, Builder.wrote, Builder.withFrames, hout, Builder.loopStart,
      Builder.inside, Builder.labelled, Builder.withStack]
    simp [Array.append_assoc]
  · exact Nat.le_trans (Nat.le_add_right _ _) htrees.vars
  · exact Nat.le_trans (Nat.le_succ _) htrees.labels
  · intro fuel locals stack env hrel
    obtain ⟨base, env₁, hrun, hext, hfresh, htop, hbase, hentered⟩ :=
      exists_entered hrel hsplit sig.results
    rw [hfirst] at hfresh
    obtain ⟨env₂, hrun₂, hext₂, hfresh₂, hparams, hsome, hentered₂⟩ :=
      exists_copied hentered hfresh htop hsplit.top
    have hrel₂ : Rel (b.loopStart sig top rest) locals (stack.take sig.params.length) env₂ :=
      hrel.inside (hext.trans hext₂) rfl rfl rfl
        (hfresh₂.mono (Nat.le_of_eq (Nat.add_assoc _ _ _))) hparams hsome
    rw [execAll_next (hrun fuel), execAll_next (hrun₂ fuel), execAll_singleton]
    simp only [evalInstr, evalConstruct, hsig, if_pos (hrel.length_le h)]
    -- every round starts with its parameters in their variables, as the first one does
    refine follows_rounds hopened hlooping (Nat.le_of_eq hfirst) hground h.reachable hbase htrees.vars
      hinner.ends.keeps.locals _ (fun locals values env₁ hrel₁ hentered₁ => ?_) fuel hrel₂ hentered₂
    exact hinner.finishes htrees rfl hrel₁ hentered₁.results fuel

/-- To leave a scope and then the block around it is to leave the block. -/
lemma leaveBlock_within (label : Label) (control : Control) (env : Env) :
    (control.within env).leaveBlock label env = control.leaveBlock label env := by
  have hleave : ∀ inner : Env, env.leave (env.leave inner) = env.leave inner := by
    intro inner
    funext x
    unfold Env.leave
    split <;> rfl
  unfold Control.leaveBlock
  cases control <;> simp only [Control.within, hleave]

/-- The relation inside of a frame does not depend on what else has been written. -/
lemma Rel.later {b₁ : Builder} (h : Rel (b₀.inside frame) locals values env)
    (hexits : b₁.exits = b₀.exits) (hlocals : b₁.locals = b₀.locals)
    (hvars : b₀.nextVar ≤ b₁.nextVar) : Rel (b₁.inside frame) locals values env where
  slots := h.slots
  types := h.types.trans hlocals.symm
  operands := h.operands
  fresh := h.fresh.mono hvars
  targets := by
    rw [exits_inside, hexits]
    exact h.targets

lemma Finishes.congr {b₁ : Builder} {flow : Flow} {control : Control}
    (h : Finishes (b₁.inside frame) env flow control) (hexits : b₁.exits = b₀.exits)
    (hlocals : b₁.locals = b₀.locals) : Finishes (b₀.inside frame) env flow control := by
  have hexits' : (b₁.inside frame).exits = (b₀.inside frame).exits := by
    rw [exits_inside, exits_inside, hexits]
  cases h with
  | fall harrives =>
    exact .fall ⟨harrives.slots, harrives.types.trans hlocals, harrives.carried,
      harrives.valueTypes, harrives.kept⟩
  | branch hexit hkind harrives =>
    exact .branch (hexits' ▸ hexit) hkind ⟨harrives.slots, harrives.types.trans hlocals,
      harrives.carried, harrives.valueTypes, harrives.kept⟩
  | ret hexit hkind => exact .ret (hexits' ▸ hexit) hkind
  | trap t => exact .trap t
  | outOfFuel => exact .outOfFuel

/-- The tree does what one of the arms of a conditional does; `eval` says which one, by the value of
the condition. -/
def EitherArm (b : Builder) (n : Nat) (types : List ValType) (cond : Atom)
    (eval : BitVec 32 → Nat → List Value → List Value → Flow) (tree : Tree) : Prop :=
  ∀ fuel w locals values env, cond.eval env = some (.i32 w) → Rel b locals values env →
    (∀ k, .temp k ∈ temps n types.length → (env (.temp k)).isSome) →
    ∃ control, Finishes b env (eval w fuel locals values) control ∧
      execTree fuel tree env = control.within env

/-- A conditional has been written: `tree` is what stands inside of its block. -/
structure Chooses (b b' : Builder) (cond : Atom) (tree : Tree) : Prop where
  emitted : ∃ lines, b'.out ++ (fallLines b'.current).toArray = b.out ++ lines.toArray ∧
    Parses ([.openIf cond] ++ lines ++ [.close]) [tree]
  vars : b.nextVar ≤ b'.nextVar
  labels : b.nextLabel ≤ b'.nextLabel

section Arms

variable {cond : Atom} {top : List Operand} {thenBody elseBody : List Instr} {b₃ : Builder}

/-- A conditional with two arms. -/
lemma exists_twoArms (hready : Ready C b (below ++ sig.params)) (hground : Grounded b)
    (hsplit : Splits b sig.params below top rest)
    (hthen : Inner (C.inside sig.results) thenBody sig.results (b.thenStart cond sig top rest) b₂)
    (helse : Inner (C.inside sig.results) elseBody sig.results (b.elseStart b₂ sig top rest) b₃)
    (hthenBody : Preserves (C.inside sig.results) thenBody sig.params)
    (helseBody : Preserves (C.inside sig.results) elseBody sig.params) :
    ∃ tree, Chooses (b.thenStart cond sig top rest) b₃ cond tree ∧
      EitherArm (b.thenStart cond sig top rest) (b.nextVar + b.settling.length) sig.results cond
        (fun w fuel => evalSeq C.module fuel (sig.results.length :: b.arities)
          (if w = 0 then elseBody else thenBody)) tree := by
  have hlocals : b₂.locals = b.locals := hthen.ends.keeps.locals
  have hground₁ : Grounded (b.thenStart cond sig top rest) :=
    hground.inside rfl rfl (Nat.lt_succ_self _) ⟨_, rfl⟩
  obtain ⟨trees, htrees⟩ := hthenBody _ b₂ (hready.thenStart hsplit cond) hground₁ hthen.run
  -- the first arm has used up labels, so those of the second one are later
  have hground₂ : Grounded (b.elseStart b₂ sig top rest) :=
    hground.inside rfl rfl (Nat.lt_of_succ_le htrees.labels) ⟨_, rfl⟩
  obtain ⟨trees', htrees'⟩ := helseBody _ b₃ (hready.elseStart hsplit hlocals) hground₂ helse.run
  obtain ⟨lines, hout, hparses⟩ := htrees.emitted
  obtain ⟨lines', hout', hparses'⟩ := htrees'.emitted
  have htree := (hparses.append (.ofLeaves (plain_fallLines b₂.current))).twoArms
    (hparses'.append (.ofLeaves (plain_fallLines b₃.current)))
    (show (Line.openIf cond).opens = true from rfl)
  refine ⟨.twoArms (.openIf cond) (trees ++ leaves (fallLines b₂.current))
    (trees' ++ leaves (fallLines b₃.current)),
    ⟨⟨lines ++ fallLines b₂.current ++ [Line.openElse] ++ (lines' ++ fallLines b₃.current), ?_, ?_⟩,
      Nat.le_trans htrees.vars htrees'.vars, Nat.le_trans htrees.labels htrees'.labels⟩, ?_⟩
  · rw [hout']
    simp only [Builder.elseStart, Builder.inside, Builder.withFrames, Builder.wrote, hout]
    simp [Array.append_assoc]
  · simpa only [List.append_assoc] using htree
  · intro fuel w locals values env hcond hrel hsome
    by_cases hw : w = 0
    · have hrel' : Rel (b.elseStart b₂ sig top rest) locals values env :=
        hrel.later rfl hlocals htrees.vars
      simp only [if_pos hw]
      refine ⟨_, (helse.finishes htrees' rfl hrel' hsome fuel).congr rfl hlocals, ?_⟩
      simp only [execTree, hcond, if_pos hw]
    · simp only [if_neg hw]
      refine ⟨_, hthen.finishes htrees rfl hrel hsome fuel, ?_⟩
      simp only [execTree, hcond, if_neg hw]

/-- A conditional without a second arm, which has no results and so no parameters either. -/
lemma exists_oneArm (hready : Ready C b (below ++ sig.params)) (hground : Grounded b)
    (hsplit : Splits b sig.params below top rest)
    (hthen : Inner (C.inside sig.results) thenBody sig.results (b.thenStart cond sig top rest) b₂)
    (hthenBody : Preserves (C.inside sig.results) thenBody sig.params)
    (hresults : sig.results = []) (hparams : sig.params = []) :
    ∃ tree, Chooses (b.thenStart cond sig top rest) b₂ cond tree ∧
      EitherArm (b.thenStart cond sig top rest) (b.nextVar + b.settling.length) sig.results cond
        (fun w fuel => evalSeq C.module fuel (sig.results.length :: b.arities)
          (if w = 0 then [] else thenBody)) tree := by
  have hground₁ : Grounded (b.thenStart cond sig top rest) :=
    hground.inside rfl rfl (Nat.lt_succ_self _) ⟨_, rfl⟩
  obtain ⟨trees, htrees⟩ := hthenBody _ b₂ (hready.thenStart hsplit cond) hground₁ hthen.run
  obtain ⟨lines, hout, hparses⟩ := htrees.emitted
  have htree := (hparses.append (.ofLeaves (plain_fallLines b₂.current))).scope
    (show (Line.openIf cond).opens = true from rfl)
  refine ⟨.scope (.openIf cond) (trees ++ leaves (fallLines b₂.current)),
    ⟨⟨lines ++ fallLines b₂.current, ?_, htree⟩, htrees.vars, htrees.labels⟩, ?_⟩
  · rw [hout]
    simp [Array.append_assoc]
  · intro fuel w locals values env hcond hrel hsome
    by_cases hw : w = 0
    · -- nothing is on the stack inside, so to do nothing is right
      have htop : top = [] := by
        have htypes := hsplit.top
        rw [hparams] at htypes
        exact List.map_eq_nil_iff.1 htypes
      have hvalues : values = [] := by
        have hops : List.Forall₂ (Denotes env) top values := hrel.operands
        rw [htop] at hops
        exact List.forall₂_nil_left_iff.1 hops
      have harrives : Arrives (b.thenStart cond sig top rest) env (b.newTarget sig.results) locals
          values env := by
        rw [hresults, hvalues]
        exact ⟨hrel.slots, hrel.types, rfl, rfl, fun _ _ _ hv => hv⟩
      refine ⟨.next env, ?_, ?_⟩
      · simp only [if_pos hw, evalSeq]
        exact .fall harrives
      · simp only [execTree, hcond, if_pos hw, Control.within, Env.leave_self]
    · simp only [if_neg hw]
      refine ⟨_, hthen.finishes htrees rfl hrel hsome fuel, ?_⟩
      simp only [execTree, hcond, if_neg hw]

end Arms

lemma IfLowered.realizes {thenBody elseBody : List Instr}
    (hlowered : IfLowered C thenBody elseBody sig below b b')
    (hsig : C.module.signature? ty = some sig)
    (h : Ready C b (below ++ sig.params ++ [ValType.i32]))
    (hground : Grounded b) (hthenBody : Preserves (C.inside sig.results) thenBody sig.params)
    (helseBody : Preserves (C.inside sig.results) elseBody sig.params)
    (hmissing : elseBody = [] → sig.params = sig.results) :
    Realizes b b' fun fuel =>
      evalInstr C.module fuel b.arities (.ifElse ty thenBody elseBody) := by
  obtain ⟨cond, operands, top, rest, b₂, b₃, hstack, hcond, hsplit, hthen, harm, rfl⟩ := hlowered
  have hready : Ready C (b.withStack operands) (below ++ sig.params) := by
    refine h.of_keeps ⟨rfl, rfl, rfl, rfl⟩ h.reachable ?_
    have hops := h.stack
    rw [hstack, List.map_cons, List.reverse_append] at hops
    exact (List.cons.inj hops).2
  have hground' : Grounded (b.withStack operands) := ⟨hground.targets, hground.labels⟩
  -- with one arm or two, the conditional is a tree that runs the arm for its condition
  obtain ⟨hlocals, tree, hchooses, heither⟩ : b₃.locals = b.locals ∧ ∃ tree,
      Chooses ((b.withStack operands).thenStart cond.atom sig top rest) b₃ cond.atom tree ∧
      EitherArm ((b.withStack operands).thenStart cond.atom sig top rest)
        (b.nextVar + (b.withStack operands).settling.length) sig.results cond.atom
        (fun w fuel => evalSeq C.module fuel (sig.results.length :: b.arities)
          (if w = 0 then elseBody else thenBody)) tree := by
    split at harm
    · exact ⟨harm.ends.keeps.locals.trans hthen.ends.keeps.locals,
        exists_twoArms hready hground' hsplit hthen harm hthenBody helseBody⟩
    · rename_i hneeds
      simp only [needsElse, Builder.newTarget, Bool.or_eq_true, Bool.not_eq_true', not_or,
        Bool.not_eq_false, List.isEmpty_iff] at hneeds
      obtain ⟨rfl, hresults⟩ := hneeds
      subst harm
      exact ⟨hthen.ends.keeps.locals, exists_oneArm hready hground' hsplit hthen hthenBody hresults
        ((hmissing rfl).trans hresults)⟩
  obtain ⟨lines, hout, hparses⟩ := hchooses.emitted
  have hscope := hparses.scope
    (show (Line.openBlock (.numbered b.nextLabel)).opens = true from rfl)
  have hentering := Parses.ofLeaves (plain_entering (b.withStack operands)
    ((b.withStack operands).nextVar + (b.withStack operands).settling.length) sig.results)
  refine ⟨_, ⟨_, ?_, hentering.append hscope⟩, ?_, ?_, ?_⟩
  · simp only [Builder.resume, Builder.wrote, Builder.withFrames]
    rw [← List.append_toArray, ← Array.append_assoc, hout]
    simp [Builder.thenStart, Builder.inside, Builder.labelled, Builder.withStack, Builder.wrote,
      Array.append_assoc]
  · exact Nat.le_trans (Nat.le_add_right _ _) hchooses.vars
  · exact Nat.le_trans (Nat.le_succ _) hchooses.labels
  · intro fuel locals stack env hrel
    obtain ⟨v, stack, hc, hops, rfl⟩ := hrel.exists_top hstack
    obtain ⟨w, rfl⟩ := exists_i32_of_type (hc.type.trans hcond)
    have hrel' : Rel (b.withStack operands) locals stack env :=
      ⟨hrel.slots, hrel.types, hops, hrel.fresh, hrel.targets⟩
    obtain ⟨base, env₁, hrun, hext, hfresh, htop, hbase, hentered⟩ :=
      exists_entered hrel' hsplit sig.results
    have hrel₁ : Rel ((b.withStack operands).thenStart cond.atom sig top rest) locals
        (stack.take sig.params.length) env₁ :=
      hrel'.inside hext rfl rfl rfl (hfresh.mono (Nat.le_of_eq (Nat.add_assoc _ _ _))) htop
        hentered.results
    obtain ⟨control, hfinishes, hexec⟩ :=
      heither fuel w locals _ env₁ (hc.extend hext).eval hrel₁ hentered.results
    have hopened : Opened (b.withStack operands)
        ((b.withStack operands).thenStart cond.atom sig top rest)
        (b.nextVar + (b.withStack operands).settling.length) sig.results :=
      ⟨rfl, rfl, rfl, (show FrameKind.ifArm ≠ .function by decide), rfl⟩
    have hfollows := hfinishes.leaveBlock hopened (show FrameKind.ifArm ≠ .loop by decide) rfl hrel₁
      hentered hground' h.reachable hbase hchooses.vars hlocals
      (fallLines b₃.current ++ [Line.close, .close])
    have heval : evalInstr C.module fuel b.arities (.ifElse ty thenBody elseBody) locals
        (.i32 w :: stack) =
        (evalSeq C.module fuel (sig.results.length :: b.arities)
          (if w = 0 then elseBody else thenBody) locals
            (stack.take sig.params.length)).leave (stack.drop sig.params.length) := by
      simp only [evalInstr, evalConstruct, hsig, if_pos (hrel'.length_le hready)]
      split <;> rfl
    rw [heval, execAll_next (hrun fuel), execAll_singleton]
    simp only [execTree, execAll_singleton, hexec, leaveBlock_within]
    exact hfollows.from_earlier rfl rfl fun _ _ hv => hv

end Constructs

/-! ### Sequences -/

lemma evalInstr_of_simple {instr : Instr} {before after : List ValType}
    (h : Simple C instr before after) (fuel : Nat) (labels : List Nat) :
    evalInstr C.module fuel labels instr = evalSimple labels instr := by
  cases h <;> simp only [evalInstr]

lemma evalInstr_of_transfer {instr : Instr} {given : List (Option ValType)}
    (h : Transfer C instr given) (fuel : Nat) (labels : List Nat) :
    evalInstr C.module fuel labels instr = evalSimple labels instr := by
  cases h <;> simp only [evalInstr]

lemma Grounded.of_keeps (h : Grounded b) (hkeeps : Keeps b b') (hlabels : b.nextLabel ≤ b'.nextLabel) :
    Grounded b' where
  targets := by
    rw [hkeeps.exits]
    exact h.targets
  labels := by
    rw [hkeeps.exits]
    exact fun exit hexit n hn => Nat.lt_of_lt_of_le (h.labels exit hexit n hn) hlabels

/-- One instruction that is no transfer, followed by the rest of its sequence. -/
lemma preserves_cons {instr : Instr} {rest : List Instr} {given mid : List ValType}
    (hinstr : ∀ b b', Ready C b given → Grounded b → lowerInstr C.module instr b = .ok () b' →
      Realizes b b' (fun fuel => evalInstr C.module fuel b.arities instr) ∧
        Keeps b b' ∧ Ready C b' mid)
    (hrest : Preserves C rest mid) : Preserves C (instr :: rest) given := by
  intro b b'' h hground hrun
  rw [lowerSeq_cons h.reachable] at hrun
  obtain ⟨⟨⟩, b', hfirst, hsecond⟩ := of_bind_run_ok hrun
  obtain ⟨⟨trees, htrees⟩, hkeeps, hready⟩ := hinstr b b' h hground hfirst
  obtain ⟨trees', htrees'⟩ :=
    hrest b' b'' hready (hground.of_keeps hkeeps htrees.labels) hsecond
  have harities : b'.arities = b.arities := by
    rw [Builder.arities, hkeeps.exits, Builder.arities]
  rw [harities] at htrees'
  refine ⟨trees ++ trees', ?_⟩
  simp only [evalSeq]
  exact htrees.andThen htrees' hkeeps.exits hkeeps.locals

/-- A typed sequence of integer instructions is lowered to lines that do what it does. -/
theorem preserves_of_typed {body : List Instr} {operands : List (Option ValType)}
    {types : List ValType} (h : Typed C body operands types) (hintegral : integralSeq body = true)
    {given : List ValType} (hgiven : operands = given.map some) : Preserves C body given := by
  induction h generalizing given with
  | nil hfits =>
    intro b b' h hground hrun
    rw [lowerSeq, pure_run] at hrun
    cases hrun
    refine ⟨[], translates_silent h.reachable fun _ locals stack env hrel => ?_⟩
    simp only [evalSeq]
    exact ⟨stack, rfl, hrel.operands⟩
  | @simple C instr rest _ _ _ _ _ hinstr hfits hrest ih =>
    rw [integralSeq, Bool.and_eq_true] at hintegral
    obtain ⟨below, before, rfl, rfl, rfl⟩ := List.map_eq_append_iff.1 hgiven.symm
    cases fits_map_some hfits
    refine preserves_cons (fun b b' h hground hrun => ?_) (ih hintegral.2 List.map_append.symm)
    rw [(lowerInstr_of_simple hinstr).1] at hrun
    simp only [evalInstr_of_simple hinstr]
    refine ⟨lowerSimple_realizes hintegral.1 hinstr h hground hrun, ?_⟩
    obtain ⟨b₁, hrun₁, hleads⟩ :=
      lowerSimple_leads hinstr (fun hother => by simp [hother] at hintegral) h
    cases hrun₁.symm.trans hrun
    exact hleads
  | selectUnknown hcond _ ih =>
    obtain ⟨below, top, rfl, rfl, htop⟩ := List.map_eq_append_iff.1 hgiven.symm
    obtain ⟨ty, rest, -, hty, -⟩ := List.map_eq_cons_iff.1 htop
    cases hty
  | transfer hinstr anything _ ih =>
    obtain ⟨below, taken, rfl, rfl, rfl⟩ := List.map_eq_append_iff.1 hgiven.symm
    intro b b' h hground hrun
    obtain ⟨b₁, hrun₁, hkeeps, hleft⟩ := lowerSimple_leaves hinstr h
    rw [lowerSeq_cons h.reachable, (lowerInstr_of_transfer hinstr).1, bind_run_ok hrun₁,
      lowerSeq_unreached hleft] at hrun
    cases hrun
    obtain ⟨trees, htrees⟩ := lowerTransfer_realizes hinstr h hground hrun₁
    refine ⟨trees, ?_⟩
    simp only [evalSeq, evalInstr_of_transfer hinstr]
    exact htrees.andThen_unreached hleft _
  | block hsig hfits hbody _ ihbody ih =>
    rw [integralSeq, Instr.integral, Bool.and_eq_true] at hintegral
    obtain ⟨below, params, rfl, rfl, rfl⟩ := List.map_eq_append_iff.1 hgiven.symm
    cases fits_map_some hfits
    refine preserves_cons (fun b b' h hground hrun => ?_) (ih hintegral.2 List.map_append.symm)
    have hlowers := lowers_of_typed hbody (fun hother => by simp [hother] at hintegral) rfl
    have hlowered := (lowerBlock_succeeds h hsig hlowers).of_ok hrun
    exact ⟨hlowered.realizes hsig h hground (ihbody hintegral.1 rfl), hlowered.ready h⟩
  | loop hsig hfits hbody _ ihbody ih =>
    rw [integralSeq, Instr.integral, Bool.and_eq_true] at hintegral
    obtain ⟨below, params, rfl, rfl, rfl⟩ := List.map_eq_append_iff.1 hgiven.symm
    cases fits_map_some hfits
    refine preserves_cons (fun b b' h hground hrun => ?_) (ih hintegral.2 List.map_append.symm)
    have hlowers := lowers_of_typed hbody (fun hother => by simp [hother] at hintegral) rfl
    have hlowered := (lowerLoop_succeeds h hsig hlowers).of_ok hrun
    exact ⟨hlowered.realizes hsig h hground (ihbody hintegral.1 rfl), hlowered.ready h⟩
  | @ifElse C _ sig _ elseBody _ _ _ _ _ hsig hfits hcond hthen helse _ ihthen ihelse ih =>
    rw [integralSeq, Instr.integral, Bool.and_eq_true, Bool.and_eq_true] at hintegral
    obtain ⟨⟨hintThen, hintElse⟩, hintRest⟩ := hintegral
    obtain ⟨operands, cond, rfl, hoperands, hlast⟩ := List.map_eq_append_iff.1 hgiven.symm
    obtain ⟨below, params, rfl, rfl, rfl⟩ := List.map_eq_append_iff.1 hoperands
    cases fits_map_some hfits
    obtain ⟨ty, rfl, rfl⟩ := List.map_eq_singleton_iff.1 hlast
    cases fits_some hcond
    refine preserves_cons (fun b b' h hground hrun => ?_) (ih hintRest List.map_append.symm)
    have hlowersThen := lowers_of_typed hthen (fun hother => by simp [hother] at hintThen) rfl
    have hlowersElse := lowers_of_typed helse (fun hother => by simp [hother] at hintElse) rfl
    have hmissing : elseBody = [] → sig.params = sig.results := by
      intro hempty
      rw [hempty] at helse
      exact (eq_of_typed_nil helse).symm
    have hlowered := (lowerIf_succeeds h hsig hlowersThen hlowersElse hmissing).of_ok hrun
    exact ⟨hlowered.realizes hsig h hground (ihthen hintThen rfl) (ihelse hintElse rfl) hmissing,
      hlowered.ready h⟩

end WasmAot.Lowering
