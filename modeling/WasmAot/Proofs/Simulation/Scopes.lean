/-
# Scopes of constructs

A construct runs the lines of its body in a scope of its own.  Before the scope its results are
declared; a branch to the construct, or the end of its body, assigns them and leaves the scope, and
then they stand for the values that the construct leaves on the stack.  What lay on the stack below
is in variables that no line inside assigns.
-/
import WasmAot.Proofs.Simulation.Instructions
import WasmAot.Proofs.Validation.Completeness

namespace WasmAot.Lowering

open Code Host Semantics Stateful Validation

/-! ### Entering -/

/-- The environment at the start of the body of a construct in `b`: `base` is that before the
results, numbered from `n` on, were declared. -/
structure Entered (b : Builder) (n : Nat) (types : List ValType) (rest : List Operand)
    (below : List Value) (base env : Env) : Prop where
  fresh : Fresh n base
  denotes : List.Forall₂ (Denotes base) rest below
  reads : ∀ op ∈ rest, op.reads = none
  targets : ∀ exit ∈ b.exits, ∀ k, .temp k ∈ exit.target.vars → (base (.temp k)).isSome
  kept : ∀ k v, base (.temp k) = some v → env (.temp k) = some v
  results : ∀ k, .temp k ∈ temps n types.length → (env (.temp k)).isSome

section Entering

variable {b b₁ : Builder} {sig : FuncType} {params below : List ValType} {top rest : List Operand}
  {locals stack : List Value} {env : Env}

/-- The lines in front of a construct bind the operands and declare the results. -/
lemma exists_entered (h : Rel b locals stack env) (hsplit : Splits b params below top rest)
    (types : List ValType) :
    let n := b.nextVar + b.settling.length
    ∃ base env₁, Straight (b.settling ++ zeroLines n types) env env₁ ∧ Extends env env₁ ∧
      Fresh (n + types.length) env₁ ∧
      List.Forall₂ (Denotes env₁) top (stack.take params.length) ∧
      (∀ k v, env (.temp k) = some v → base (.temp k) = some v) ∧
      Entered b n types rest (stack.drop params.length) base env₁ := by
  intro n
  -- in `base` the deferred reads are bound, but the results are not declared yet
  obtain ⟨base, hsettle, hext, hfresh, hops⟩ :=
    straight_settledLines (fun _ => true) h.operands h.fresh
  obtain ⟨env₁, hzero, hext₁, hfresh₁, hsome⟩ := straight_zeroLines types hfresh
  have hstack : settledStack (fun _ => true) b.nextVar b.current.stack = top ++ rest := hsplit.stack
  have hlen : params.length = top.length := by
    simpa using (congrArg List.length hsplit.top).symm
  rw [hstack] at hops
  rw [hlen]
  obtain ⟨htop, hrest⟩ := denotes_split hops
  refine ⟨base, env₁, hsettle.append hzero, hext.trans hext₁, hfresh₁,
    htop.imp fun _ _ hd => hd.extend hext₁, hext.temps, hfresh, hrest, hsplit.reads, ?_,
    hext₁.temps, fun k hk => hsome _ hk⟩
  intro exit hexit k hk
  obtain ⟨v, hv⟩ := Option.isSome_iff_exists.1 (h.targets exit hexit k hk)
  rw [hext.temps k v hv]
  rfl

lemma plain_zeroLines {n : Nat} {types : List ValType} :
    ∀ line ∈ zeroLines n types, line.plain = true := by
  induction types generalizing n with
  | nil => simp [zeroLines]
  | cons ty types ih =>
    rw [zeroLines]
    exact List.forall_mem_cons.2 ⟨rfl, ih⟩

lemma plain_copyLines {n : Nat} {ops : List Operand} :
    ∀ line ∈ copyLines n ops, line.plain = true := by
  induction ops generalizing n with
  | nil => simp [copyLines]
  | cons op ops ih =>
    rw [copyLines]
    exact List.forall_mem_cons.2 ⟨rfl, ih⟩

/-- The lines in front of a construct open nothing. -/
lemma plain_entering (b : Builder) (n : Nat) (types : List ValType) :
    ∀ line ∈ b.settling ++ zeroLines n types, line.plain = true :=
  List.forall_mem_append.2 ⟨plain_settledLines, plain_zeroLines⟩

lemma isSome_of_denotes_freshOperands {n : Nat} {types : List ValType} {values : List Value}
    (h : List.Forall₂ (Denotes env) (freshOperands n types) values) :
    ∀ k, .temp k ∈ temps n types.length → (env (.temp k)).isSome := by
  induction types generalizing n values with
  | nil => simp [temps]
  | cons ty types ih =>
    intro k hk
    rw [List.length_cons, temps_succ, List.mem_cons] at hk
    cases h with
    | cons hhead htail =>
      rcases hk with hk | hk
      · cases hk
        have heval := hhead.eval
        simp only [Operand.atom] at heval
        split at heval <;> exact Option.isSome_of_eq_some heval
      · exact ih htail k hk

/-- The parameters of a loop are copied to variables of their own. -/
lemma exists_copied {n first : Nat} {types : List ValType} {base env₁ : Env}
    {values belowValues : List Value} (hentered : Entered b n types rest belowValues base env₁)
    (hfresh : Fresh first env₁) (htop : List.Forall₂ (Denotes env₁) top values)
    (htypes : top.map Operand.ty = sig.params.reverse) :
    ∃ env₂, Straight (copyLines first top.reverse) env₁ env₂ ∧ Extends env₁ env₂ ∧
      Fresh (first + sig.params.length) env₂ ∧
      List.Forall₂ (Denotes env₂) (freshOperands first sig.params).reverse values ∧
      (∀ k, .temp k ∈ temps first sig.params.length → (env₂ (.temp k)).isSome) ∧
      Entered b n types rest belowValues base env₂ := by
  obtain ⟨env₂, hrun, hext, hfresh₂, hden⟩ :=
    straight_copyLines (List.forall₂_reverse_iff.2 htop) hfresh
  have hparams : top.reverse.map Operand.ty = sig.params := by
    rw [List.map_reverse, htypes, List.reverse_reverse]
  have hlen : top.reverse.length = sig.params.length := by
    rw [← hparams, List.length_map]
  rw [hparams] at hden
  rw [hlen] at hfresh₂
  refine ⟨env₂, hrun, hext, hfresh₂, by simpa using List.forall₂_reverse_iff.2 hden,
    isSome_of_denotes_freshOperands hden, hentered.fresh, hentered.denotes, hentered.reads,
    hentered.targets, fun k v hv => hext.temps k v (hentered.kept k v hv), fun k hk => ?_⟩
  obtain ⟨v, hv⟩ := Option.isSome_iff_exists.1 (hentered.results k hk)
  exact Option.isSome_of_eq_some (hext.temps k v hv)

/-- The relation at the start of the body of a construct. -/
lemma Rel.inside (h : Rel b locals stack env) {env₁ : Env} {frame : Frame} {values : List Value}
    (hext : Extends env env₁) (hcurrent : b₁.current = frame) (hexits : b₁.exits = frame.exit :: b.exits)
    (hlocals : b₁.locals = b.locals) (hfresh : Fresh b₁.nextVar env₁)
    (hops : List.Forall₂ (Denotes env₁) frame.stack values)
    (htarget : ∀ k, .temp k ∈ frame.branch.vars → (env₁ (.temp k)).isSome) :
    Rel b₁ locals values env₁ where
  slots index := (hext.slots index).trans (h.slots index)
  types := h.types.trans hlocals.symm
  operands := by rw [hcurrent]; exact hops
  fresh := hfresh
  targets := by
    intro exit hexit k hk
    rw [hexits, List.mem_cons] at hexit
    rcases hexit with rfl | hexit
    · exact htarget k hk
    · obtain ⟨v, hv⟩ := Option.isSome_iff_exists.1 (h.targets exit hexit k hk)
      rw [hext.temps k v hv]
      rfl

lemma Grounded.inside (h : Grounded b) {frame : Frame} (hexits : b₁.exits = frame.exit :: b.exits)
    (hlabel : frame.label = .numbered b.nextLabel) (hlabels : b.nextLabel < b₁.nextLabel)
    (hvars : ∃ first, frame.branch.vars = temps first frame.branch.types.length) : Grounded b₁ where
  targets := by
    intro exit hexit hkind
    rw [hexits, List.mem_cons] at hexit
    rcases hexit with rfl | hexit
    · exact hvars
    · exact h.targets exit hexit hkind
  labels := by
    intro exit hexit n hn
    rw [hexits, List.mem_cons] at hexit
    rcases hexit with rfl | hexit
    · rw [Frame.exit, hlabel] at hn
      cases hn
      exact hlabels
    · exact Nat.lt_trans (h.labels exit hexit n hn) hlabels

end Entering

/-! ### The end of the body -/

/-- What happens at the end of a body whose operands have become the results of its construct. -/
def Frame.finish (frame : Frame) (env : Env) : Control :=
  if frame.kind = .loop then .breakTo frame.label env else .next env

/-- The lines of a body, with the lines at its end, do what the body does. -/
inductive Finishes (b : Builder) (env : Env) : Flow → Control → Prop
  | fall {locals values : List Value} {env' : Env}
      (harrives : Arrives b env b.current.results locals values env') :
      Finishes b env (.next locals values) (b.current.finish env')
  | branch {depth : Nat} {exit : Exit} {locals values : List Value} {env' : Env}
      (hexit : b.exits[depth]? = some exit) (hkind : exit.kind ≠ .function)
      (harrives : Arrives b env exit.target locals values env') :
      Finishes b env (.branch depth locals values) (exit.leave env')
  | ret {depth : Nat} {exit : Exit} {locals values : List Value}
      (hexit : b.exits[depth]? = some exit) (hkind : exit.kind = .function) :
      Finishes b env (.branch depth locals values) (.returned values.reverse)
  | trap (t : Trap) : Finishes b env (.trap t) (.trapped t)
  | outOfFuel : Finishes b env .outOfFuel .outOfFuel

section Finishing

variable {b b' : Builder} {env : Env} {fuel : Nat}

lemma plain_fallLines (frame : Frame) : ∀ line ∈ fallLines frame, line.plain = true := by
  unfold fallLines
  split
  · simp
  · intro line hline
    rcases List.mem_append.1 hline with hline | hline
    · exact plain_assignLines line hline
    · split at hline
      · rw [List.mem_singleton.1 hline]
        rfl
      · cases hline

lemma Follows.finishes {flow : Flow} {control : Control} (h : Follows b b' env flow control)
    (hkeeps : Keeps b b') (hfinished : b'.current.Finished) (first : Nat)
    (hvars : b.current.results.vars = temps first b.current.results.types.length)
    (hsome : ∀ k, .temp k ∈ b.current.results.vars → (env (.temp k)).isSome) :
    Finishes b env flow (control.andThen (execAll fuel (leaves (fallLines b'.current)))) := by
  cases h with
  | @next locals values env' hreached hrel hkept =>
    have hresults := hkeeps.results
    have hsome' : ∀ k, .temp k ∈ b'.current.results.vars → (env' (.temp k)).isSome := by
      intro k hk
      rw [hresults] at hk
      obtain ⟨v, hv⟩ := Option.isSome_iff_exists.1 (hsome k hk)
      rw [hkept k v hv]
      rfl
    -- at its end the body hands its values to the variables of the results
    obtain ⟨env'', hrun, harrives⟩ := straight_assignLines hrel (by rw [hresults]; exact hvars) hsome'
      hrel.operands (hfinished hreached)
    have hexec : execAll fuel (leaves (fallLines b'.current)) env' = b.current.finish env'' := by
      have hkind : b'.current.kind = b.current.kind := congrArg Exit.kind hkeeps.exit
      have hlabel : b'.current.label = b.current.label := congrArg Exit.label hkeeps.exit
      rw [fallLines, hreached, Frame.finish, ← hkind, ← hlabel]
      simp only [Bool.false_eq_true, if_false]
      rw [leaves_append, execAll_next (hrun fuel)]
      split
      · rw [execAll_leaf]
        rfl
      · simp only [leaves, List.map_nil, execAll]
    change Finishes b env _ (execAll fuel (leaves (fallLines b'.current)) env')
    rw [hexec]
    rw [hresults] at harrives
    exact .fall ⟨harrives.slots, harrives.types.trans hkeeps.locals, harrives.carried,
      harrives.valueTypes, fun k v hk hv => harrives.kept k v hk (hkept k v hv)⟩
  | branch hexit hkind harrives =>
    rw [Exit.leave_andThen]
    exact .branch hexit hkind harrives
  | ret hexit hkind => exact .ret hexit hkind
  | trap t => exact .trap t
  | outOfFuel => exact .outOfFuel

end Finishing

/-! ### Leaving -/

/-- The builder `b₁` is inside of a construct that was opened in `b` and has results of the types,
numbered from `n` on. -/
structure Opened (b b₁ : Builder) (n : Nat) (types : List ValType) : Prop where
  exits : b₁.exits = b₁.current.exit :: b.exits
  locals : b₁.locals = b.locals
  label : b₁.current.label = .numbered b.nextLabel
  kind : b₁.current.kind ≠ .function
  results : b₁.current.results = ⟨temps n types.length, types⟩

section Leaving

variable {b b₁ b₃ : Builder} {n : Nat} {types : List ValType} {rest : List Operand}
  {below locals values locals₁ stack₁ : List Value} {base env env₁ env' : Env}

lemma denotes_freshOperands (hvalues : (temps n types.length).map env = values.map some)
    (htypes : values.map Value.type = types) :
    List.Forall₂ (Denotes env) (freshOperands n types) values := by
  induction types generalizing n values with
  | nil =>
    cases List.map_eq_nil_iff.1 htypes
    exact .nil
  | cons ty types ih =>
    obtain ⟨v, vs, rfl, rfl, rfl⟩ := List.map_eq_cons_iff.1 htypes
    rw [List.length_cons, temps_succ, List.map_cons, List.map_cons, List.cons.injEq] at hvalues
    exact .cons (.bound hvalues.1) (ih hvalues.2 rfl)

/-- Outside of a construct its results stand for the values that have arrived. -/
lemma Arrives.resume (h : Arrives b₁ env₁ ⟨temps n types.length, types⟩ locals values env')
    (hopened : Opened b b₁ n types) (hrel : Rel b₁ locals₁ stack₁ env₁)
    (hentered : Entered b n types rest below base env₁) (hvars : b₁.nextVar ≤ b₃.nextVar)
    (hlocals : b₃.locals = b.locals) (lines : List Line) :
    Rel (b₃.resume { b.current with stack := rest } b.enclosing n types lines) locals
        (values ++ below) (env₁.leave env') ∧
      ∀ k v, base (.temp k) = some v → env₁.leave env' (.temp k) = some v := by
  have hwithin := h.within hrel ⟨n, rfl⟩ hentered.results
  have hkept : ∀ k v, base (.temp k) = some v → env₁.leave env' (.temp k) = some v := by
    intro k v hv
    -- the variables of the results are newer than all that `base` holds
    refine hwithin.kept k v (fun hmem => ?_) (hentered.kept k v hv)
    obtain ⟨m, hle, -, heq⟩ := mem_temps.1 hmem
    cases heq
    rw [hentered.fresh k hle] at hv
    cases hv
  refine ⟨⟨hwithin.slots, ?_, ?_, ?_, ?_⟩, hkept⟩
  · rw [h.types, hopened.locals]
    exact hlocals.symm
  · refine List.rel_append ?_ ?_
    · have hfresh : List.Forall₂ (Denotes (env₁.leave env')) (freshOperands n types) values.reverse :=
        denotes_freshOperands hwithin.carried
          (by rw [List.map_reverse, h.valueTypes, List.reverse_reverse])
      simpa using List.forall₂_reverse_iff.2 hfresh
    -- the operands below read no local, so nothing that the body wrote concerns them
    · refine ((List.forall₂_and_left _ _).2 ⟨hentered.reads, hentered.denotes⟩).imp fun op v hop => ?_
      exact hop.2.mono (fun index hindex => by rw [hop.1] at hindex; cases hindex) hkept
  · intro k hk
    exact Env.leave_of_none (hrel.fresh k (Nat.le_trans hvars hk))
  · intro exit hexit k hk
    obtain ⟨v, hv⟩ := Option.isSome_iff_exists.1 (hentered.targets exit hexit k hk)
    rw [hkept k v hv]
    rfl

/-- A branch beyond a construct goes on outside of it. -/
lemma Arrives.outward {exit : Exit} (h : Arrives b₁ env₁ exit.target locals values env')
    (hopened : Opened b b₁ n types) (hrel : Rel b₁ locals₁ stack₁ env₁)
    (hentered : Entered b n types rest below base env₁) (hground : Grounded b)
    (hexit : exit ∈ b.exits) (hkind : exit.kind ≠ .function)
    (hbase : ∀ k v, env (.temp k) = some v → base (.temp k) = some v) :
    Arrives b env exit.target locals values (env₁.leave env') := by
  have hdefined : ∀ k, .temp k ∈ exit.target.vars → (env₁ (.temp k)).isSome :=
    hrel.targets exit (hopened.exits ▸ List.mem_cons_of_mem _ hexit)
  have hwithin := h.within hrel (hground.targets exit hexit hkind) hdefined
  exact ⟨hwithin.slots, hwithin.types.trans hopened.locals, hwithin.carried, hwithin.valueTypes,
    fun k v hk hv => hwithin.kept k v hk (hentered.kept k v (hbase k v hv))⟩

lemma Exit.leave_of_ne_loop {exit : Exit} (h : exit.kind ≠ .loop) (env : Env) :
    exit.leave env = .breakTo exit.label env := by
  unfold Exit.leave
  split
  · rename_i hloop
    exact absurd hloop h
  · rfl

/-- A break or a continue to another label passes a block. -/
lemma Exit.leave_leaveBlock {exit : Exit} {label : Label} (h : exit.label ≠ label)
    (outer env : Env) :
    (exit.leave env).leaveBlock label outer = exit.leave (outer.leave env) := by
  rw [Control.leaveBlock, exit.leave_within]
  unfold Exit.leave
  cases exit.kind <;> exact if_neg h

/-- A block leaves the values of its body, or of a branch to it, on what was there before. -/
lemma Finishes.leaveBlock {flow : Flow} {control : Control} (h : Finishes b₁ env₁ flow control)
    (hopened : Opened b b₁ n types) (hloop : b₁.current.kind ≠ .loop)
    (hbranch : b₁.current.branch = b₁.current.results) (hrel : Rel b₁ locals₁ stack₁ env₁)
    (hentered : Entered b n types rest below base env₁) (hground : Grounded b)
    (hreached : b.current.unreachable = false)
    (hbase : ∀ k v, env (.temp k) = some v → base (.temp k) = some v)
    (hvars : b₁.nextVar ≤ b₃.nextVar) (hlocals : b₃.locals = b.locals) (lines : List Line) :
    Follows b (b₃.resume { b.current with stack := rest } b.enclosing n types lines) env
      (flow.leave below) (control.leaveBlock (.numbered b.nextLabel) env₁) := by
  cases h with
  | @fall locals values env' harrives =>
    rw [hopened.results] at harrives
    obtain ⟨hrel', hkept⟩ := harrives.resume hopened hrel hentered hvars hlocals lines
    rw [Frame.finish, if_neg hloop]
    exact .next hreached hrel' fun k v hv => hkept k v (hbase k v hv)
  | @branch depth exit locals values env' hexit hkind harrives =>
    rw [hopened.exits] at hexit
    cases depth with
    | zero =>
      cases Option.some.inj hexit
      have htarget : b₁.current.exit.target = ⟨temps n types.length, types⟩ :=
        hbranch.trans hopened.results
      rw [htarget] at harrives
      obtain ⟨hrel', hkept⟩ := harrives.resume hopened hrel hentered hvars hlocals lines
      have hcontrol : (b₁.current.exit.leave env').leaveBlock (.numbered b.nextLabel) env₁ =
          .next (env₁.leave env') := by
        rw [Control.leaveBlock, Exit.leave_within, Exit.leave_of_ne_loop hloop]
        exact if_pos hopened.label
      rw [hcontrol]
      exact .next hreached hrel' fun k v hv => hkept k v (hbase k v hv)
    | succ depth =>
      have hmem := List.mem_of_getElem? (l := b.exits) hexit
      -- the labels further out have smaller numbers than that of the block
      have hlabel : exit.label ≠ .numbered b.nextLabel := fun heq =>
        absurd (hground.labels exit hmem _ heq) (Nat.lt_irrefl _)
      rw [Exit.leave_leaveBlock hlabel]
      exact .branch hexit hkind (harrives.outward hopened hrel hentered hground hmem hkind hbase)
  | @ret depth exit locals values hexit hkind =>
    rw [hopened.exits] at hexit
    cases depth with
    | zero =>
      cases Option.some.inj hexit
      exact absurd hkind hopened.kind
    | succ depth => exact .ret hexit hkind
  | trap t => exact .trap t
  | outOfFuel => exact .outOfFuel

end Leaving

/-! ### Repeating -/

/-- The builder `b₁` is inside of a loop, whose parameters are variables numbered from `first` on.
-/
structure Looping (b₁ : Builder) (first : Nat) (params : List ValType) : Prop where
  kind : b₁.current.kind = .loop
  branch : b₁.current.branch = ⟨temps first params.length, params⟩
  stack : b₁.current.stack = (freshOperands first params).reverse

section Repeating

variable {b b₁ b₃ : Builder} {n first : Nat} {types params : List ValType} {rest : List Operand}
  {below locals values locals₁ stack₁ : List Value} {base env env₁ env' : Env}

/-- A branch to the loop leads to the start of its body again, with new values of the parameters. -/
lemma Arrives.again (h : Arrives b₁ env₁ ⟨temps first params.length, params⟩ locals values env')
    (hlooping : Looping b₁ first params) (hrel : Rel b₁ locals₁ stack₁ env₁)
    (hentered : Entered b n types rest below base env₁) (hfirst : n + types.length ≤ first)
    (hsome : ∀ k, .temp k ∈ temps first params.length → (env₁ (.temp k)).isSome) :
    Rel b₁ locals values (env₁.leave env') ∧
      Entered b n types rest below base (env₁.leave env') := by
  have hwithin := h.within hrel ⟨first, rfl⟩ hsome
  -- the variables of the parameters are newer than those of the results
  have hbefore : ∀ k, k < first → Name.temp k ∉ temps first params.length := by
    intro k hk hmem
    obtain ⟨m, hle, -, heq⟩ := mem_temps.1 hmem
    cases heq
    omega
  have hkept : ∀ k v, env₁ (.temp k) = some v → (env₁.leave env' (.temp k)).isSome := by
    intro k v hv
    by_cases hmem : Name.temp k ∈ temps first params.length
    · have hin := List.mem_map_of_mem (f := env₁.leave env') hmem
      rw [hwithin.carried] at hin
      obtain ⟨u, -, hu⟩ := List.mem_map.1 hin
      rw [← hu]
      rfl
    · rw [hwithin.kept k v hmem hv]
      rfl
  refine ⟨⟨hwithin.slots, h.types, ?_, ?_, ?_⟩, hentered.fresh, hentered.denotes, hentered.reads,
    hentered.targets, ?_, ?_⟩
  · have hfresh : List.Forall₂ (Denotes (env₁.leave env')) (freshOperands first params)
        values.reverse :=
      denotes_freshOperands hwithin.carried
        (by rw [List.map_reverse, h.valueTypes, List.reverse_reverse])
    rw [hlooping.stack]
    simpa using List.forall₂_reverse_iff.2 hfresh
  · exact fun k hk => Env.leave_of_none (hrel.fresh k hk)
  · intro exit hexit k hk
    obtain ⟨v, hv⟩ := Option.isSome_iff_exists.1 (hrel.targets exit hexit k hk)
    exact hkept k v hv
  · intro k v hv
    have hlt : k < n := by
      by_contra hle
      rw [hentered.fresh k (Nat.le_of_not_lt hle)] at hv
      cases hv
    exact hwithin.kept k v (hbefore k (by omega)) (hentered.kept k v hv)
  · intro k hk
    obtain ⟨v, hv⟩ := Option.isSome_iff_exists.1 (hentered.results k hk)
    exact hkept k v hv

/-- A break or a continue to another label leaves a loop. -/
lemma execRounds_leave {exec : Env → Control} {label : Label} {rounds : Nat} {exit : Exit}
    (hlabel : exit.label ≠ label) (h : exec env = exit.leave env') :
    execRounds exec label (rounds + 1) env = exit.leave (env.leave env') := by
  rw [execRounds, h, exit.leave_within]
  unfold Exit.leave
  cases exit.kind <;> exact if_neg hlabel

/-- The rounds of a loop do what the rounds of its body do. -/
lemma follows_rounds {body : List Value → List Value → Flow} {exec : Env → Control}
    (hopened : Opened b b₁ n types) (hlooping : Looping b₁ first params)
    (hfirst : n + types.length ≤ first) (hground : Grounded b)
    (hreached : b.current.unreachable = false)
    (hbase : ∀ k v, env (.temp k) = some v → base (.temp k) = some v)
    (hvars : b₁.nextVar ≤ b₃.nextVar) (hlocals : b₃.locals = b.locals) (lines : List Line)
    (hbody : ∀ locals values env₁, Rel b₁ locals values env₁ →
      Entered b n types rest below base env₁ → Finishes b₁ env₁ (body locals values) (exec env₁))
    (rounds : Nat) (hrel : Rel b₁ locals values env₁)
    (hentered : Entered b n types rest below base env₁) :
    Follows b (b₃.resume { b.current with stack := rest } b.enclosing n types lines) env
      ((evalRounds body rounds locals values).leave below)
      (execRounds exec (.numbered b.nextLabel) rounds env₁) := by
  -- the rounds of both sides are counted alike
  induction rounds generalizing locals values env₁ with
  | zero => exact .outOfFuel
  | succ rounds ih =>
    have hround := hbody locals values env₁ hrel hentered
    rw [evalRounds]
    generalize body locals values = flow at hround ⊢
    generalize hcontrol : exec env₁ = control at hround
    cases hround with
    | @fall locals values env' harrives =>
      rw [hopened.results] at harrives
      obtain ⟨hrel', hkept⟩ := harrives.resume hopened hrel hentered hvars hlocals lines
      rw [execRounds, hcontrol, Frame.finish, if_pos hlooping.kind]
      simp only [Control.within, hopened.label, if_true]
      exact .next hreached hrel' fun k v hv => hkept k v (hbase k v hv)
    | @branch depth exit locals values env' hexit hkind harrives =>
      rw [hopened.exits] at hexit
      cases depth with
      | zero =>
        cases Option.some.inj hexit
        have hsome : ∀ k, .temp k ∈ b₁.current.branch.vars → (env₁ (.temp k)).isSome :=
          hrel.targets b₁.current.exit (hopened.exits ▸ List.mem_cons_self)
        rw [Frame.exit] at harrives
        rw [hlooping.branch] at harrives hsome
        obtain ⟨hrel', hentered'⟩ := harrives.again hlooping hrel hentered hfirst hsome
        rw [execRounds, hcontrol, Exit.leave_within]
        simp only [Exit.leave, Frame.exit, hlooping.kind, hopened.label, if_true]
        exact ih hrel' hentered'
      | succ depth =>
        have hmem := List.mem_of_getElem? (l := b.exits) hexit
        have hlabel : exit.label ≠ .numbered b.nextLabel := fun heq =>
          absurd (hground.labels exit hmem _ heq) (Nat.lt_irrefl _)
        have hpassed := harrives.outward hopened hrel hentered hground hmem hkind hbase
        rw [execRounds_leave hlabel hcontrol]
        exact .branch hexit hkind hpassed
    | @ret depth exit locals values hexit hkind =>
      rw [hopened.exits] at hexit
      cases depth with
      | zero =>
        cases Option.some.inj hexit
        exact absurd hkind hopened.kind
      | succ depth =>
        rw [execRounds, hcontrol]
        exact .ret hexit hkind
    | trap t =>
      rw [execRounds, hcontrol]
      exact .trap t
    | outOfFuel =>
      rw [execRounds, hcontrol]
      exact .outOfFuel

end Repeating

end WasmAot.Lowering
