/-
# Single instructions

For each instruction that owns no others, the lines that it is lowered to do what it does.  Values
are bound by straight lines, and a branch assigns the variables of its target and leaves.
-/
import WasmAot.Proofs.Simulation.Relation

namespace WasmAot.Lowering

open Code Host Semantics Stateful

/-- The ways out of a place in a body are as the constructs around it have made them. -/
structure Grounded (b : Builder) : Prop where
  /-- a branch to a construct assigns a run of variables -/
  targets : ∀ exit ∈ b.exits, exit.kind ≠ .function →
    ∃ first, exit.target.vars = temps first exit.target.types.length
  /-- the labels of constructs are in use already -/
  labels : ∀ exit ∈ b.exits, ∀ n, exit.label = .numbered n → n < b.nextLabel

/-- The numbers of values that branches take along, by their depth. -/
def Builder.arities (b : Builder) : List Nat :=
  b.exits.map fun exit => exit.target.types.length

section

variable {b b' : Builder} {locals stack : List Value} {env env' : Env}

/-! ### Straight lines -/

/-- The relation after straight lines that have changed the operands. -/
lemma Rel.wrote (h : Rel b locals stack env) {ops : List Operand} {stack' : List Value} {vars : Nat}
    {lines : List Line} (hext : Extends env env') (hfresh : Fresh (b.nextVar + vars) env')
    (hops : List.Forall₂ (Denotes env') ops stack') :
    Rel ((b.withStack ops).wrote vars lines) locals stack' env' where
  slots index := (hext.slots index).trans (h.slots index)
  types := h.types
  operands := hops
  fresh := hfresh
  targets := by
    intro exit hexit n hn
    obtain ⟨v, hv⟩ := Option.isSome_iff_exists.1 (h.targets exit hexit n hn)
    rw [hext.temps n v hv]
    rfl

/-- The value of a local. -/
lemma Rel.exists_local (h : Rel b locals stack env) {index : Nat} {ty : ValType}
    (hlocal : b.locals[index]? = some ty) : ∃ v, locals[index]? = some v ∧ v.type = ty := by
  rw [← h.types, List.getElem?_map, Option.map_eq_some_iff] at hlocal
  exact hlocal

/-- The value of the topmost operand. -/
lemma Rel.exists_top (h : Rel b locals stack env) {op : Operand} {rest : List Operand}
    (hstack : b.current.stack = op :: rest) :
    ∃ v below, Denotes env op v ∧ List.Forall₂ (Denotes env) rest below ∧ stack = v :: below := by
  have hops := h.operands
  rw [hstack] at hops
  exact List.forall₂_cons_left_iff.1 hops

/-- Straight lines that change the operands translate an evaluation that goes on. -/
lemma translates_straight {ops : List Operand} {vars : Nat} {lines : List Line}
    {eval : Nat → List Value → List Value → Flow} (hreached : b.current.unreachable = false)
    (hplain : ∀ line ∈ lines, line.plain = true)
    (h : ∀ fuel locals stack env, Rel b locals stack env → ∃ stack' env', 
      eval fuel locals stack = .next locals stack' ∧ Straight lines env env' ∧ Extends env env' ∧
      Fresh (b.nextVar + vars) env' ∧ List.Forall₂ (Denotes env') ops stack') :
    Translates b ((b.withStack ops).wrote vars lines) (leaves lines) eval where
  emitted := ⟨lines, rfl, .ofLeaves hplain⟩
  vars := Nat.le_add_right _ _
  labels := Nat.le_refl _
  follows := by
    intro fuel locals stack env hrel
    obtain ⟨stack', env', heval, hrun, hext, hfresh, hops⟩ := h fuel locals stack env hrel
    rw [heval, hrun fuel]
    exact .next hreached (hrel.wrote hext hfresh hops) hext.temps

/-- An evaluation that only changes the operands needs no lines. -/
lemma translates_silent {ops : List Operand} {eval : Nat → List Value → List Value → Flow}
    (hreached : b.current.unreachable = false)
    (h : ∀ fuel locals stack env, Rel b locals stack env → ∃ stack',
      eval fuel locals stack = .next locals stack' ∧ List.Forall₂ (Denotes env) ops stack') :
    Translates b (b.withStack ops) [] eval := by
  rw [← Builder.wrote_zero_nil (b.withStack ops)]
  refine translates_straight hreached (by simp) fun fuel locals stack env hrel => ?_
  obtain ⟨stack', heval, hops⟩ := h fuel locals stack env hrel
  exact ⟨stack', env, heval, .nil env, .refl env, hrel.fresh, hops⟩

/-- The value of an expression is bound to a new variable, or the expression traps. -/
lemma translates_computed {rest : List Operand} {ty : ValType} {e : Expr}
    {eval : Nat → List Value → List Value → Flow} (hreached : b.current.unreachable = false)
    (h : ∀ fuel locals stack env, Rel b locals stack env → ∃ below r,
      eval fuel locals stack = pushResult locals below (some r) ∧ e.eval env = some r ∧
      (∀ v, r = .ok v → v.type = ty) ∧ List.Forall₂ (Denotes env) rest below) :
    Translates b (b.computed rest ty e) (leaves [.bind false (.temp b.nextVar) ty e]) eval where
  emitted := ⟨_, rfl, .leaf rfl⟩
  vars := Nat.le_add_right _ _
  labels := Nat.le_refl _
  follows := by
    intro fuel locals stack env hrel
    obtain ⟨below, r, heval, he, hty, hrest⟩ := h fuel locals stack env hrel
    have hnone := hrel.fresh _ (Nat.le_refl _)
    rw [heval]
    cases r with
    | ok v =>
      have hset := Extends.set hnone v
      rw [straight_bind hnone he (hty v rfl) fuel]
      refine .next hreached (hrel.wrote hset (hrel.fresh.set v) (.cons ?_ ?_)) hset.temps
      · rw [← hty v rfl]
        exact .bound Env.set_self
      · exact hrest.imp fun _ _ hd => hd.extend hset
    | error t =>
      have hexec : execAll fuel (leaves [.bind false (.temp b.nextVar) ty e]) env = .trapped t := by
        rw [execAll_leaf]
        simp only [Line.exec, hnone, he, Option.isSome_none, Bool.false_eq_true, if_false]
      rw [hexec]
      exact .trap t

end

/-! ### Values -/

section Values

variable {b : Builder} {labels : List Nat} {cond first second : Operand} {rest : List Operand}
  {ty : ValType} (hreached : b.current.unreachable = false)

include hreached

lemma translates_drop (hstack : b.current.stack = first :: rest) :
    Translates b (b.withStack rest) [] fun _ => evalSimple labels .drop := by
  refine translates_silent hreached fun _ locals stack env hrel => ?_
  obtain ⟨v, below, -, hrest, rfl⟩ := hrel.exists_top hstack
  exact ⟨below, rfl, hrest⟩

/-- A literal that an instruction pushes is written at its use. -/
lemma translates_literal {instr : Instr} (atom : Atom) (v : Value)
    (hinstr : ∀ locals stack, evalSimple labels instr locals stack = .next locals (v :: stack))
    (hatom : ∀ env : Env, atom.eval env = some v) :
    Translates b (b.withStack (⟨.deferred atom none, v.type⟩ :: b.current.stack)) []
      fun _ => evalSimple labels instr := by
  refine translates_silent hreached fun _ locals stack env hrel => ?_
  exact ⟨_, hinstr locals stack, .cons (.literal hatom) hrel.operands⟩

lemma translates_localGet {index : Nat} (hlocal : b.locals[index]? = some ty) :
    Translates b (b.withStack (localOperand index ty :: b.current.stack)) []
      fun _ => evalSimple labels (.localGet index) := by
  refine translates_silent hreached fun _ locals stack env hrel => ?_
  obtain ⟨v, hv, rfl⟩ := hrel.exists_local hlocal
  refine ⟨v :: stack, ?_, .cons (.slot (by rw [hrel.slots, hv])) hrel.operands⟩
  simp only [evalSimple, hv, Option.map_some, pushResult]

lemma translates_select {annotated : Option ValType}
    (hstack : b.current.stack = cond :: second :: first :: rest) (hcond : cond.ty = .i32)
    (hfirst : first.ty = ty) (hsecond : second.ty = ty) :
    Translates b (b.computed rest ty (.select cond.atom first.atom second.atom))
      (leaves [.bind false (.temp b.nextVar) ty (.select cond.atom first.atom second.atom)])
      fun _ => evalSimple labels (.select annotated) := by
  refine translates_computed hreached fun _ locals stack env hrel => ?_
  obtain ⟨c, both, hc, hboth, rfl⟩ := hrel.exists_top hstack
  obtain ⟨y, one, hy, hone, rfl⟩ := List.forall₂_cons_left_iff.1 hboth
  obtain ⟨x, below, hx, hrest, rfl⟩ := List.forall₂_cons_left_iff.1 hone
  obtain ⟨w, rfl⟩ := exists_i32_of_type (hc.type.trans hcond)
  refine ⟨below, .ok (if w = 0 then y else x), rfl, ?_, ?_, hrest⟩
  · simp only [Expr.eval, hc.eval]
    split
    · rw [hy.eval]
      rfl
    · rw [hx.eval]
      rfl
  · intro v hv
    rw [← Except.ok.inj hv]
    split
    · exact hy.type.trans hsecond
    · exact hx.type.trans hfirst

lemma translates_unary {op : UnOp} (hint : ty.isInt = true) (hdefined : op.definedFor ty = true)
    (hstack : b.current.stack = first :: rest) (hfirst : first.ty = ty) :
    Translates b (b.computed rest (op.resultType ty) (.unary ty op first.atom))
      (leaves [.bind false (.temp b.nextVar) (op.resultType ty) (.unary ty op first.atom)])
      fun _ => evalSimple labels (.unary ty op) := by
  refine translates_computed hreached fun _ locals stack env hrel => ?_
  obtain ⟨x, below, hx, hrest, rfl⟩ := hrel.exists_top hstack
  obtain ⟨r, hr, hrty⟩ := exists_unaryValue hint hdefined (hx.type.trans hfirst)
  refine ⟨below, .ok r, ?_, ?_, fun v hv => (Except.ok.inj hv) ▸ hrty, hrest⟩
  · simp only [evalSimple, hr, Option.map_some]
  · simp only [Expr.eval, hx.eval, Option.bind_eq_bind, Option.bind_some, hr, Option.map_some]

lemma translates_binary {op : BinOp} (hint : ty.isInt = true) (hdefined : op.definedFor ty = true)
    (hstack : b.current.stack = second :: first :: rest) (hfirst : first.ty = ty)
    (hsecond : second.ty = ty) :
    Translates b (b.computed rest ty (.binary ty op first.atom second.atom))
      (leaves [.bind false (.temp b.nextVar) ty (.binary ty op first.atom second.atom)])
      fun _ => evalSimple labels (.binary ty op) := by
  refine translates_computed hreached fun _ locals stack env hrel => ?_
  obtain ⟨y, one, hy, hone, rfl⟩ := hrel.exists_top hstack
  obtain ⟨x, below, hx, hrest, rfl⟩ := List.forall₂_cons_left_iff.1 hone
  obtain ⟨r, hr, hrty⟩ :=
    exists_binaryValues hint hdefined (hx.type.trans hfirst) (hy.type.trans hsecond)
  refine ⟨below, r, ?_, ?_, hrty, hrest⟩
  · simp only [evalSimple, hr]
  · simp only [Expr.eval, hx.eval, hy.eval, Option.bind_eq_bind, Option.bind_some, hr]

lemma translates_compare {op : CmpOp} (hint : ty.isInt = true) (hdefined : op.definedFor ty = true)
    (hstack : b.current.stack = second :: first :: rest) (hfirst : first.ty = ty)
    (hsecond : second.ty = ty) :
    Translates b (b.computed rest .i32 (.compare ty op first.atom second.atom))
      (leaves [.bind false (.temp b.nextVar) .i32 (.compare ty op first.atom second.atom)])
      fun _ => evalSimple labels (.compare ty op) := by
  refine translates_computed hreached fun _ locals stack env hrel => ?_
  obtain ⟨y, one, hy, hone, rfl⟩ := hrel.exists_top hstack
  obtain ⟨x, below, hx, hrest, rfl⟩ := List.forall₂_cons_left_iff.1 hone
  obtain ⟨r, hr, hrty⟩ :=
    exists_compareValues hint hdefined (hx.type.trans hfirst) (hy.type.trans hsecond)
  refine ⟨below, .ok r, ?_, ?_, fun v hv => (Except.ok.inj hv) ▸ hrty, hrest⟩
  · simp only [evalSimple, hr, Option.map_some]
  · simp only [Expr.eval, hx.eval, hy.eval, Option.bind_eq_bind, Option.bind_some, hr,
      Option.map_some]

end Values

/-! ### Writes to locals -/

section Locals

variable {b : Builder} {locals stack : List Value} {env : Env} {index : Nat} {ty : ValType}
  {v : Value}

/-- A local can be written where no operand reads it. -/
lemma Rel.set_local (h : Rel b locals stack env) (hlocal : b.locals[index]? = some ty)
    (hv : v.type = ty) (hreads : ∀ op ∈ b.current.stack, op.reads ≠ some index) :
    Rel b (locals.set index v) stack (env.set (.slot index) v) where
  slots k := by
    obtain ⟨u, hu, -⟩ := h.exists_local hlocal
    by_cases hk : k = index
    · rw [hk, Env.set_self, List.getElem?_set_self (List.getElem?_eq_some_iff.1 hu).1]
    · rw [Env.set_of_ne (by simpa using hk), h.slots, List.getElem?_set_ne (Ne.symm hk)]
  types := by
    obtain ⟨hlt, hget⟩ := List.getElem?_eq_some_iff.1 hlocal
    rw [List.map_set, h.types, hv, ← hget, List.set_getElem_self]
  operands := by
    -- only an operand that reads the local would notice the write
    refine ((List.forall₂_and_left _ _).2 ⟨hreads, h.operands⟩).imp fun op u hop => ?_
    refine hop.2.mono (fun k hk => Env.set_of_ne ?_) fun n w hw => ?_
    · rintro heq
      cases heq
      exact hop.1 hk
    · rwa [Env.set_of_ne (by simp)]
  fresh := fun n hn => by rw [Env.set_of_ne (by simp), h.fresh n hn]
  targets := fun exit hexit n hn => by
    rw [Env.set_of_ne (by simp)]
    exact h.targets exit hexit n hn

lemma plain_settledLines {which : Nat → Bool} {n : Nat} {ops : List Operand} :
    ∀ line ∈ settledLines which n ops, line.plain = true := by
  induction ops with
  | nil => simp [settledLines]
  | cons op ops ih =>
    rw [settledLines]
    split
    · intro line hline
      rcases List.mem_append.1 hline with hline | hline
      · exact ih line hline
      · rw [List.mem_singleton.1 hline]
        rfl
    · exact ih

/-- The lines of a write to a local: the operands that read it are bound, then it takes its value.
-/
lemma localSet_lines {op : Operand} {rest : List Operand} (h : Rel b locals stack env)
    (hlocal : b.locals[index]? = some ty) (hstack : b.current.stack = op :: rest)
    (hty : op.ty = ty) :
    let lines := settledLines (· == index) b.nextVar rest
    ∃ v below env', stack = v :: below ∧ v.type = ty ∧ index < locals.length ∧
      Straight (lines ++ [Line.assign [.slot index] [op.atom]]) env env' ∧
      Rel ((b.withStack (settledStack (· == index) b.nextVar rest)).wrote lines.length
        (lines ++ [Line.assign [.slot index] [op.atom]])) (locals.set index v) below env' ∧
      ∀ n u, env (.temp n) = some u → env' (.temp n) = some u := by
  intro lines
  obtain ⟨v, below, hop, hrest, rfl⟩ := h.exists_top hstack
  obtain ⟨env₁, hrun, hext, hfresh, hops⟩ := straight_settledLines (· == index) hrest h.fresh
  obtain ⟨u, hu, -⟩ := h.exists_local hlocal
  have hrel₁ : Rel ((b.withStack (settledStack (· == index) b.nextVar rest)).wrote lines.length
      (lines ++ [Line.assign [.slot index] [op.atom]])) locals below env₁ :=
    h.wrote hext hfresh hops
  -- the assignment comes last, when no operand reads the local any more
  have hassign : Straight [.assign [.slot index] [op.atom]] env₁ (env₁.set (.slot index) v) := by
    intro fuel
    have hslot : (env₁ (.slot index)).isSome = true := by rw [hext.slots, h.slots, hu]; rfl
    have hatom : evalAtoms env₁ [op.atom] = some [v] := by
      simp only [evalAtoms, (hop.extend hext).eval]
      rfl
    rw [execAll_leaf, Line.exec, hatom]
    simp [hslot, Env.setAll]
  refine ⟨v, below, _, rfl, hop.type.trans hty, (List.getElem?_eq_some_iff.1 hu).1,
    hrun.append hassign, hrel₁.set_local hlocal (hop.type.trans hty) ?_, ?_⟩
  · intro o ho hreads
    simpa using reads_settledStack ho hreads
  · intro n w hw
    rw [Env.set_of_ne (by simp), hext.temps n w hw]

variable {labels : List Nat} {op : Operand} {rest : List Operand}

lemma translates_localSet (hreached : b.current.unreachable = false)
    (hlocal : b.locals[index]? = some ty) (hstack : b.current.stack = op :: rest)
    (hty : op.ty = ty) :
    let lines := settledLines (· == index) b.nextVar rest
    Translates b ((b.withStack (settledStack (· == index) b.nextVar rest)).wrote lines.length
      (lines ++ [Line.assign [.slot index] [op.atom]]))
      (leaves (lines ++ [Line.assign [.slot index] [op.atom]]))
      fun _ => evalSimple labels (.localSet index) := by
  intro lines
  have hplain : ∀ line ∈ lines ++ [Line.assign [.slot index] [op.atom]], line.plain = true := by
    intro line hline
    rcases List.mem_append.1 hline with hline | hline
    · exact plain_settledLines line hline
    · rw [List.mem_singleton.1 hline]
      rfl
  refine ⟨⟨_, rfl, .ofLeaves hplain⟩, Nat.le_add_right _ _, Nat.le_refl _,
    fun fuel locals stack env hrel => ?_⟩
  obtain ⟨v, below, env', rfl, -, hlt, hrun, hrel', hkept⟩ := localSet_lines hrel hlocal hstack hty
  rw [hrun fuel]
  simp only [evalSimple, if_pos hlt]
  exact .next hreached hrel' hkept

/-- To tee a value is to set the local and to get it back. -/
lemma evalSimple_localTee (locals stack : List Value) :
    evalSimple labels (.localTee index) locals stack =
      (evalSimple labels (.localSet index) locals stack).andThen
        (evalSimple labels (.localGet index)) := by
  cases stack with
  | nil => rfl
  | cons v stack =>
    simp only [evalSimple]
    split
    · rename_i hlt
      simp only [Flow.andThen, evalSimple, List.getElem?_set_self hlt, Option.map_some, pushResult]
    · rfl

lemma translates_localTee (hreached : b.current.unreachable = false)
    (hlocal : b.locals[index]? = some ty) (hstack : b.current.stack = op :: rest)
    (hty : op.ty = ty) :
    let lines := settledLines (· == index) b.nextVar rest
    Translates b ((b.withStack (localOperand index ty ::
      settledStack (· == index) b.nextVar rest)).wrote lines.length
        (lines ++ [Line.assign [.slot index] [op.atom]]))
      (leaves (lines ++ [Line.assign [.slot index] [op.atom]]))
      fun _ => evalSimple labels (.localTee index) := by
  intro lines
  -- a tee is a write followed by a read
  have hset : Translates b _ _ fun _ => evalSimple labels (.localSet index) :=
    translates_localSet hreached hlocal hstack hty
  have hget : Translates _ _ [] fun _ => evalSimple labels (.localGet index) :=
    translates_localGet (b := (b.withStack (settledStack (· == index) b.nextVar rest)).wrote
      lines.length (lines ++ [Line.assign [.slot index] [op.atom]])) hreached hlocal
  have hboth := hset.andThen hget rfl rfl
  simp only [← evalSimple_localTee, List.append_nil] at hboth
  exact hboth

end Locals

/-! ### Branches -/

lemma plain_assignLines {vars : List Name} {values : List Atom} :
    ∀ line ∈ assignLines vars values, line.plain = true := by
  unfold assignLines
  split <;> simp [Line.plain, Line.opens]

lemma plain_exitLines {exit : Exit} {values : List Atom} :
    ∀ line ∈ exitLines exit values, line.plain = true := by
  have happend : ∀ line', line'.plain = true →
      ∀ line ∈ assignLines exit.target.vars values ++ [line'], line.plain = true := by
    intro line' hline' line hline
    rcases List.mem_append.1 hline with hline | hline
    · exact plain_assignLines line hline
    · rwa [List.mem_singleton.1 hline]
  unfold exitLines
  split
  · intro line hline
    rw [List.mem_singleton.1 hline]
    rfl
  · exact happend _ rfl
  · exact happend _ rfl
  · exact happend _ rfl

section Branches

variable {b b' : Builder} {locals stack values : List Value} {env env' : Env}

/-- Values are assigned to the variables of a target all at once. -/
lemma straight_assignLines (h : Rel b locals stack env) {target : Target} {first : Nat}
    (hvars : target.vars = temps first target.types.length)
    (hdefined : ∀ n, .temp n ∈ target.vars → (env (.temp n)).isSome)
    {ops : List Operand} (hops : List.Forall₂ (Denotes env) ops values)
    (htypes : ops.map Operand.ty = target.types.reverse) :
    ∃ env', Straight (assignLines target.vars (ops.reverse.map Operand.atom)) env env' ∧
      Arrives b env target locals values env' := by
  have hvalueTypes : values.map Value.type = target.types.reverse :=
    (types_of_denotes hops).trans htypes
  have hlen : target.vars.length = values.reverse.length := by
    rw [hvars, length_temps, List.length_reverse]
    simpa using (congrArg List.length hvalueTypes).symm
  have hsome : ∀ x ∈ target.vars, (env x).isSome = true := by
    intro x hx
    rw [hvars, mem_temps] at hx
    obtain ⟨n, hle, hlt, rfl⟩ := hx
    exact hdefined n (hvars ▸ mem_temps.2 ⟨n, hle, hlt, rfl⟩)
  refine ⟨env.setAll target.vars values.reverse, fun fuel => ?_, ?_⟩
  -- no line is written for a target without variables
  · unfold assignLines
    split
    · rename_i hempty
      rw [List.isEmpty_iff.1 hempty]
      simp only [leaves, List.map_nil, execAll, Env.setAll]
    · rw [execAll_leaf, Line.exec, evalAtoms_of_denotes hops]
      exact if_pos ⟨hlen, hsome⟩
  · refine ⟨fun index => ?_, h.types, ?_, hvalueTypes, fun n v hmem hv => ?_⟩
    · rw [Env.setAll_of_not_mem, h.slots]
      rw [hvars, mem_temps]
      rintro ⟨n, -, -, heq⟩
      cases heq
    · exact Env.map_setAll (hvars ▸ nodup_temps _ _) hlen
    · rw [Env.setAll_of_not_mem hmem, hv]

/-- The lines of a branch take its values to its target. -/
lemma follows_exitLines (h : Rel b locals stack env) (hground : Grounded b) {depth : Nat} {exit : Exit}
    (hexit : b.exits[depth]? = some exit) {ops : List Operand}
    (hops : List.Forall₂ (Denotes env) ops values)
    (htypes : ops.map Operand.ty = exit.target.types.reverse) (fuel : Nat) :
    Follows b b' env (.branch depth locals values)
      (execAll fuel (leaves (exitLines exit (ops.reverse.map Operand.atom))) env) := by
  have hmem := List.mem_of_getElem? hexit
  -- a branch past all constructs returns
  by_cases hkind : exit.kind = .function
  · have hexec : execAll fuel (leaves (exitLines exit (ops.reverse.map Operand.atom))) env =
        .returned values.reverse := by
      simp only [exitLines, hkind]
      rw [execAll_leaf, Line.exec, evalAtoms_of_denotes hops]
    rw [hexec]
    exact .ret hexit hkind
  · obtain ⟨first, hvars⟩ := hground.targets exit hmem hkind
    obtain ⟨env', hrun, harrives⟩ :=
      straight_assignLines h hvars (h.targets exit hmem) hops htypes
    have hexec : execAll fuel (leaves (exitLines exit (ops.reverse.map Operand.atom))) env =
        exit.leave env' := by
      unfold exitLines Exit.leave
      cases hk : exit.kind with
      | function => exact absurd hk hkind
      | loop | block | ifArm =>
        dsimp only
        rw [leaves_append, execAll_next (hrun fuel), execAll_leaf]
        rfl
    rw [hexec]
    exact .branch hexit hkind harrives

/-- A branch that leaves a scope still takes its values along. -/
lemma Arrives.within {target : Target} {locals' stack' : List Value}
    (h : Arrives b env target locals values env') (hrel : Rel b locals' stack' env)
    (hvars : ∃ first, target.vars = temps first target.types.length)
    (hdefined : ∀ n, .temp n ∈ target.vars → (env (.temp n)).isSome) :
    Arrives b env target locals values (env.leave env') where
  slots index := by
    -- the locals were in scope before, so they outlive the scope
    have hlen : locals.length = locals'.length := by
      simpa using congrArg List.length (h.types.trans hrel.types.symm)
    by_cases hlt : index < locals'.length
    · rw [Env.leave_of_isSome, h.slots]
      rw [hrel.slots, List.getElem?_eq_getElem hlt]
      rfl
    · rw [Env.leave_of_none, List.getElem?_eq_none (by omega)]
      rw [hrel.slots, List.getElem?_eq_none (by omega)]
  types := h.types
  carried := by
    rw [← h.carried]
    refine List.map_congr_left fun x hx => Env.leave_of_isSome ?_
    obtain ⟨first, heq⟩ := hvars
    rw [heq, mem_temps] at hx
    obtain ⟨n, hle, hlt, rfl⟩ := hx
    exact hdefined n (heq ▸ mem_temps.2 ⟨n, hle, hlt, rfl⟩)
  valueTypes := h.valueTypes
  kept n v hmem hv := by
    rw [Env.leave_of_isSome, h.kept n v hmem hv]
    rw [hv]
    rfl

/-- Lines that never reach the end of a scope do the same seen from outside of it. -/
lemma Follows.within {flow : Flow} {control : Control} (h : Follows b b.unreached env flow control)
    (hrel : Rel b locals stack env) (hground : Grounded b) :
    Follows b b' env flow (control.within env) := by
  cases h with
  | next hreached _ _ => cases hreached
  | @branch depth exit locals values env' hexit hkind harrives =>
    have hmem := List.mem_of_getElem? hexit
    rw [Exit.leave_within]
    exact .branch hexit hkind (harrives.within hrel (hground.targets exit hmem hkind)
      (hrel.targets exit hmem))
  | ret hexit hkind => exact .ret hexit hkind
  | trap t => exact .trap t
  | outOfFuel => exact .outOfFuel

variable {top rest : List Operand} {exit : Exit} {depth : Nat}

/-- A branch finds its values on the stack. -/
lemma branchTo_arities (hexit : b.exits[depth]? = some exit)
    (hops : List.Forall₂ (Denotes env) (top ++ rest) stack)
    (htypes : top.map Operand.ty = exit.target.types.reverse) :
    branchTo b.arities depth locals stack = .branch depth locals (stack.take top.length) := by
  have hlen : exit.target.types.length = top.length := by
    simpa using (congrArg List.length htypes).symm
  have harity : b.arities[depth]? = some top.length := by
    rw [Builder.arities, List.getElem?_map, hexit, Option.map_some, hlen]
  have hle : top.length ≤ stack.length := by
    rw [← hops.length_eq, List.length_append]
    exact Nat.le_add_right _ _
  rw [branchTo, harity]
  exact if_pos hle

lemma translates_br (hground : Grounded b) (hexit : b.exits[depth]? = some exit)
    (hstack : b.current.stack = top ++ rest)
    (htypes : top.map Operand.ty = exit.target.types.reverse) :
    Translates b
      ((b.withStack rest).wrote 0 (exitLines exit (top.reverse.map Operand.atom))).unreached
      (leaves (exitLines exit (top.reverse.map Operand.atom)))
      fun _ locals stack => branchTo b.arities depth locals stack := by
  refine ⟨⟨_, rfl, .ofLeaves plain_exitLines⟩, Nat.le_refl _, Nat.le_refl _,
    fun fuel locals stack env hrel => ?_⟩
  have hops := hrel.operands
  rw [hstack] at hops
  rw [branchTo_arities hexit hops htypes]
  exact follows_exitLines hrel hground hexit (denotes_split hops).1 htypes fuel

/-- A condition that does not hold leaves the values where they are. -/
lemma translates_brIf (hreached : b.current.unreachable = false) (hground : Grounded b)
    {cond : Operand} (hexit : b.exits[depth]? = some exit)
    (hstack : b.current.stack = cond :: (top ++ rest)) (hcond : cond.ty = .i32)
    (htypes : top.map Operand.ty = exit.target.types.reverse) :
    Translates b ((b.withStack (top ++ rest)).wrote 0
      ([Line.openIf cond.atom] ++ exitLines exit (top.reverse.map Operand.atom) ++ [Line.close]))
      [.scope (.openIf cond.atom) (leaves (exitLines exit (top.reverse.map Operand.atom)))]
      fun _ => evalSimple b.arities (.brIf depth) := by
  refine ⟨⟨_, rfl, .scope (.ofLeaves plain_exitLines) rfl⟩, Nat.le_refl _, Nat.le_refl _,
    fun fuel locals stack env hrel => ?_⟩
  obtain ⟨c, below, hc, hops, rfl⟩ := hrel.exists_top hstack
  obtain ⟨w, rfl⟩ := exists_i32_of_type (hc.type.trans hcond)
  rw [execAll_singleton]
  simp only [evalSimple, execTree, hc.eval]
  split
  · exact .next hreached (hrel.wrote (.refl env) hrel.fresh hops) fun _ _ h => h
  · rw [branchTo_arities hexit hops htypes]
    exact (follows_exitLines hrel hground hexit (denotes_split hops).1 htypes fuel).within hrel hground

lemma translates_unreachable {labels : List Nat} :
    Translates b (b.wrote 0 [.returnTrap]).unreached (leaves [.returnTrap])
      fun _ => evalSimple labels .unreachable := by
  refine ⟨⟨_, rfl, .leaf rfl⟩, Nat.le_refl _, Nat.le_refl _, fun fuel locals stack env hrel => ?_⟩
  rw [execAll_leaf]
  exact .trap .unreachable

/-! Branch tables. -/

/-- The arm of a branch table as a tree. -/
def armTrees (exits : List Exit) (values : List Atom) (arm : TableArm) : List Tree :=
  match exits[arm.levels]? with
  | some exit => [.scope (.openCases arm.cases) (leaves (exitLines exit values))]
  | none => []

lemma parses_armLines (exits : List Exit) (values : List Atom) (arms : List TableArm) :
    Parses (arms.flatMap (armLines exits values)) (arms.flatMap (armTrees exits values)) := by
  induction arms with
  | nil => exact .nil
  | cons arm arms ih =>
    rw [List.flatMap_cons, List.flatMap_cons]
    refine .append ?_ ih
    cases hexit : exits[arm.levels]? with
    | some exit =>
      simp only [armLines, armTrees, hexit]
      exact .scope (.ofLeaves plain_exitLines) rfl
    | none =>
      simp only [armLines, armTrees, hexit]
      exact .nil

/-- The arms choose the way out of the first one for the number, or the default. -/
lemma execArms_armTrees {exits : List Exit} {atoms : List Atom} {arms : List TableArm}
    {otherwise target : Exit} {s : Nat}
    (hall : ∀ arm ∈ arms, ∃ exit, exits[arm.levels]? = some exit ∧ (s ∈ arm.cases → exit = target))
    (hmiss : (∀ arm ∈ arms, s ∉ arm.cases) → otherwise = target) (fuel : Nat) (env : Env) :
    execArms fuel s (arms.flatMap (armTrees exits atoms) ++
      [.scope .openOtherwise (leaves (exitLines otherwise atoms))]) env =
        execAll fuel (leaves (exitLines target atoms)) env := by
  induction arms with
  | nil =>
    rw [← hmiss (by simp)]
    simp only [List.flatMap_nil, List.nil_append, execArms]
  | cons arm arms ih =>
    obtain ⟨exit, hexit, htarget⟩ := hall arm List.mem_cons_self
    rw [List.flatMap_cons]
    simp only [armTrees, hexit, List.cons_append, List.nil_append, execArms]
    split
    · rename_i hcase
      rw [htarget hcase]
    · rename_i hcase
      refine ih (fun a ha => hall a (List.mem_cons_of_mem _ ha)) fun hothers => hmiss fun a ha => ?_
      rcases List.mem_cons.1 ha with rfl | ha
      · exact hcase
      · exact hothers a ha

/-- The number of a branch table picks its way out. -/
lemma execArms_tableArms {targets : List Nat} {default s : Nat} {atoms : List Atom}
    {otherwise target : Exit} (hdefault : b.exits[default]? = some otherwise)
    (htargets : ∀ depth ∈ targets, ∃ exit, b.exits[depth]? = some exit)
    (htarget : b.exits[targets[s]?.getD default]? = some target) (fuel : Nat) (env : Env) :
    execArms fuel s ((tableArms targets default).flatMap (armTrees b.exits atoms) ++
      [.scope .openOtherwise (leaves (exitLines otherwise atoms))]) env =
        execAll fuel (leaves (exitLines target atoms)) env := by
  refine execArms_armTrees (fun arm harm => ?_) (fun hnone => ?_) fuel env
  · obtain ⟨exit, hexit⟩ := htargets _ (levels_tableArms harm)
    refine ⟨exit, hexit, fun hcase => ?_⟩
    obtain ⟨hs, -⟩ := mem_tableArms.1 ⟨arm, harm, rfl, hcase⟩
    rw [hs, Option.getD_some, hexit] at htarget
    exact Option.some.inj htarget
  -- if no arm is for the number, its target is the default
  · have hpick : targets[s]?.getD default = default := by
      cases hs : targets[s]? with
      | none => rfl
      | some l =>
        by_contra hne
        obtain ⟨arm, harm, -, hcase⟩ := mem_tableArms.2 ⟨hs, hne⟩
        exact hnone arm harm hcase
    rw [hpick, hdefault] at htarget
    exact Option.some.inj htarget

lemma translates_brTable (hground : Grounded b) {targets : List Nat} {default : Nat}
    {selector : Operand} (hexit : b.exits[default]? = some exit)
    (htargets : ∀ depth ∈ targets, ∃ e, b.exits[depth]? = some e ∧
      e.target.types = exit.target.types)
    (hstack : b.current.stack = selector :: (top ++ rest)) (hselector : selector.ty = .i32)
    (htypes : top.map Operand.ty = exit.target.types.reverse) :
    Translates b ((b.withStack rest).wrote 0 (tableLines b.exits selector.atom
        (top.reverse.map Operand.atom) targets default exit)).unreached
      [.scope (.openMatch selector.atom)
        ((tableArms targets default).flatMap (armTrees b.exits (top.reverse.map Operand.atom)) ++
          [.scope .openOtherwise (leaves (exitLines exit (top.reverse.map Operand.atom)))])]
      fun _ => evalSimple b.arities (.brTable targets default) := by
  refine ⟨⟨_, rfl, ?_⟩, Nat.le_refl _, Nat.le_refl _, fun fuel locals stack env hrel => ?_⟩
  · have hotherwise : Parses
        ([Line.openOtherwise] ++ exitLines exit (top.reverse.map Operand.atom) ++ [Line.close])
        [.scope .openOtherwise (leaves (exitLines exit (top.reverse.map Operand.atom)))] :=
      .scope (.ofLeaves plain_exitLines) rfl
    have harms := (parses_armLines b.exits (top.reverse.map Operand.atom)
      (tableArms targets default)).append hotherwise
    have hmatch := harms.scope (show (Line.openMatch selector.atom).opens = true from rfl)
    rw [tableLines]
    simpa only [List.append_assoc] using hmatch
  · obtain ⟨c, below, hc, hops, rfl⟩ := hrel.exists_top hstack
    obtain ⟨w, rfl⟩ := exists_i32_of_type (hc.type.trans hselector)
    -- all targets take values of the same types, whichever is picked
    obtain ⟨target, htarget, heq⟩ : ∃ e, b.exits[targets[w.toNat]?.getD default]? = some e ∧
        e.target.types = exit.target.types := by
      cases hs : targets[w.toNat]? with
      | none => exact ⟨exit, hexit, rfl⟩
      | some l => exact htargets l (List.mem_of_getElem? hs)
    rw [← heq] at htypes
    rw [execAll_singleton]
    simp only [evalSimple, execTree, hc.eval]
    rw [branchTo_arities htarget hops htypes, execArms_tableArms hexit
      (fun depth hdepth => (htargets depth hdepth).imp fun _ h => h.1) htarget]
    exact (follows_exitLines hrel hground htarget (denotes_split hops).1 htypes fuel).within
      hrel hground

end Branches

end WasmAot.Lowering
