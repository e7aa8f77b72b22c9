/-
# Emitted code follows the instructions

The relation between an evaluation of instructions and an execution of the lines that they are
lowered to.  At every point the operands of the innermost frame stand for the values on the stack
(`Denotes`), the slots hold the locals, and the variables of the constructs around are in scope
(`Rel`).  Where the instructions go on, branch or trap, the lines do the same (`Follows`): a branch
has put its values into the variables of its target when the lines leave the construct.
-/
import WasmAot.Proofs.Lowering.Constructs
import WasmAot.Proofs.Semantics.Execution

namespace WasmAot.Lowering

open Code Host Semantics Stateful

/-! ### Operands and values -/

/-- The operand stands for the value. -/
inductive Denotes (env : Env) : Operand → Value → Prop
  | bound {n : Nat} {v : Value} (h : env (.temp n) = some v) :
      Denotes env ⟨.bound (.temp n), v.type⟩ v
  | literal {atom : Atom} {v : Value} (h : ∀ e : Env, atom.eval e = some v) :
      Denotes env ⟨.deferred atom none, v.type⟩ v
  | slot {index : Nat} {v : Value} (h : env (.slot index) = some v) :
      Denotes env (localOperand index v.type) v

/-- The values of the first environment's variables are there in the second one. -/
structure Extends (env env' : Env) : Prop where
  slots : ∀ index, env' (.slot index) = env (.slot index)
  temps : ∀ n v, env (.temp n) = some v → env' (.temp n) = some v

/-- No variable from `n` on is in scope. -/
def Fresh (n : Nat) (env : Env) : Prop :=
  ∀ k, n ≤ k → env (.temp k) = none

section Denotes

variable {env env' : Env} {op : Operand} {v : Value}

lemma Denotes.type (h : Denotes env op v) : v.type = op.ty := by
  cases h <;> rfl

lemma Denotes.eval (h : Denotes env op v) : op.atom.eval env = some v := by
  cases h with
  | bound h =>
    simp only [Operand.atom]
    split <;> exact h
  | literal h => exact h env
  | slot h =>
    simp only [localOperand, Operand.atom]
    split <;> exact h

lemma denotes_constant (env : Env) (x : BitVec 32) :
    Denotes env ⟨.deferred (.i32 x) none, .i32⟩ (.i32 x) :=
  @Denotes.literal env (.i32 x) (.i32 x) fun _ => rfl

/-- An operand keeps its value as long as the variables that are in scope do. -/
lemma Denotes.mono (h : Denotes env op v)
    (hslots : ∀ index, op.reads = some index → env' (.slot index) = env (.slot index))
    (htemps : ∀ n u, env (.temp n) = some u → env' (.temp n) = some u) : Denotes env' op v := by
  cases h with
  | bound h => exact .bound (htemps _ _ h)
  | literal h => exact .literal h
  | slot h => exact .slot (by rw [hslots _ rfl, h])

lemma Denotes.extend (h : Denotes env op v) (hext : Extends env env') : Denotes env' op v :=
  h.mono (fun index _ => hext.slots index) hext.temps

variable {ops top rest : List Operand} {stack : List Value}

lemma types_of_denotes (h : List.Forall₂ (Denotes env) ops stack) :
    stack.map Value.type = ops.map Operand.ty := by
  induction h with
  | nil => rfl
  | cons hhead _ ih => rw [List.map_cons, List.map_cons, ih, hhead.type]

lemma evalAtoms_of_denotes (h : List.Forall₂ (Denotes env) ops stack) :
    evalAtoms env (ops.reverse.map Operand.atom) = some stack.reverse := by
  refine evalAtoms_of_forall₂ (List.forall₂_map_left_iff.2 ?_)
  exact (List.forall₂_reverse_iff.2 h).imp fun _ _ hop => hop.eval

/-- The values split as the operands do. -/
lemma denotes_split (h : List.Forall₂ (Denotes env) (top ++ rest) stack) :
    List.Forall₂ (Denotes env) top (stack.take top.length) ∧
      List.Forall₂ (Denotes env) rest (stack.drop top.length) := by
  have htop := List.forall₂_take top.length h
  have hrest := List.forall₂_drop top.length h
  rw [List.take_left'] at htop
  · rw [List.drop_left'] at hrest
    · exact ⟨htop, hrest⟩
    · rfl
  · rfl

end Denotes

namespace Extends

variable {env env' env'' : Env}

lemma refl (env : Env) : Extends env env := ⟨fun _ => rfl, fun _ _ h => h⟩

lemma trans (h : Extends env env') (h' : Extends env' env'') : Extends env env'' :=
  ⟨fun i => (h'.slots i).trans (h.slots i), fun n v hv => h'.temps n v (h.temps n v hv)⟩

lemma set {n : Nat} (h : env (.temp n) = none) (v : Value) : Extends env (env.set (.temp n) v) where
  slots index := Env.set_of_ne (by simp)
  temps k u hu := by
    rw [Env.set_of_ne, hu]
    rintro heq
    rw [heq, h] at hu
    cases hu

end Extends

lemma Fresh.mono {n n' : Nat} {env : Env} (h : Fresh n env) (hle : n ≤ n') : Fresh n' env :=
  fun k hk => h k (Nat.le_trans hle hk)

lemma Fresh.set {n : Nat} {env : Env} (h : Fresh n env) (v : Value) :
    Fresh (n + 1) (env.set (.temp n) v) := by
  intro k hk
  rw [Env.set_of_ne, h k (by omega)]
  rintro heq
  cases heq
  omega

/-! ### Straight lines -/

/-- The lines lead from one environment to the other. -/
def Straight (lines : List Line) (env env' : Env) : Prop :=
  ∀ fuel, execAll fuel (leaves lines) env = .next env'

section Straight

variable {env env' env'' : Env} {lines lines' : List Line}

lemma Straight.nil (env : Env) : Straight [] env env := by
  intro fuel
  simp only [leaves, List.map_nil, execAll]

lemma Straight.append (h : Straight lines env env') (h' : Straight lines' env' env'') :
    Straight (lines ++ lines') env env'' := by
  intro fuel
  rw [leaves_append, execAll_next (h fuel), h' fuel]

lemma straight_bind {mutable : Bool} {x : Name} {ty : ValType} {e : Expr} {v : Value}
    (hfresh : env x = none) (he : e.eval env = some (.ok v)) (hty : v.type = ty) :
    Straight [.bind mutable x ty e] env (env.set x v) := by
  intro fuel
  rw [execAll_leaf]
  simp only [Line.exec, hfresh, he, hty, Option.isSome_none, Bool.false_eq_true, if_false, if_true]

/-- Operands that read locals are bound to their values. -/
lemma straight_settledLines (which : Nat → Bool) {n : Nat} {ops : List Operand}
    {stack : List Value} (h : List.Forall₂ (Denotes env) ops stack) (hfresh : Fresh n env) :
    ∃ env', Straight (settledLines which n ops) env env' ∧ Extends env env' ∧
      Fresh (n + (settledLines which n ops).length) env' ∧
      List.Forall₂ (Denotes env') (settledStack which n ops) stack := by
  induction h with
  | nil => exact ⟨env, .nil env, .refl env, hfresh, .nil⟩
  | @cons op v ops stack hop _ ih =>
    obtain ⟨env₁, hrun, hext, hfresh₁, hops⟩ := ih
    rw [settledLines, settledStack]
    cases hstale : staleAtom which op with
    | none => exact ⟨env₁, hrun, hext, hfresh₁, .cons (hop.extend hext) hops⟩
    | some atom =>
      -- the operand is bound after those below it
      have hatom : atom = op.atom := eq_atom_of_staleAtom hstale
      have hnone := hfresh₁ _ (Nat.le_refl _)
      have heval : (Expr.atom atom).eval env₁ = some (.ok v) := by
        rw [Expr.eval, hatom, (hop.extend hext).eval]
        rfl
      have hset := Extends.set hnone v
      refine ⟨_, hrun.append (straight_bind hnone heval hop.type), hext.trans hset, ?_, ?_⟩
      · rw [List.length_append, List.length_singleton, ← Nat.add_assoc]
        exact hfresh₁.set v
      · refine .cons ?_ (hops.imp fun _ _ hd => hd.extend hset)
        rw [← hop.type]
        exact .bound Env.set_self

/-- New variables start with zeros. -/
lemma straight_zeroLines {n : Nat} (types : List ValType) (hfresh : Fresh n env) :
    ∃ env', Straight (zeroLines n types) env env' ∧ Extends env env' ∧
      Fresh (n + types.length) env' ∧ ∀ x ∈ temps n types.length, (env' x).isSome := by
  induction types generalizing n env with
  | nil => exact ⟨env, .nil env, .refl env, hfresh, by simp [temps]⟩
  | cons ty types ih =>
    have hnone := hfresh n (Nat.le_refl _)
    have hset := Extends.set hnone (.zero ty)
    obtain ⟨env', hrun, hext, hfresh', hsome⟩ := ih (hfresh.set (.zero ty))
    refine ⟨env', (straight_bind hnone rfl (Value.type_zero ty)).append hrun, hset.trans hext, ?_, ?_⟩
    · rw [List.length_cons, Nat.add_comm types.length, ← Nat.add_assoc]
      exact hfresh'
    · intro x hx
      rw [List.length_cons, temps_succ, List.mem_cons] at hx
      rcases hx with rfl | hx
      · rw [hext.temps n _ Env.set_self]
        rfl
      · exact hsome x hx

/-- New variables take the values of operands. -/
lemma straight_copyLines {n : Nat} {ops : List Operand} {stack : List Value}
    (h : List.Forall₂ (Denotes env) ops stack) (hfresh : Fresh n env) :
    ∃ env', Straight (copyLines n ops) env env' ∧ Extends env env' ∧ Fresh (n + ops.length) env' ∧
      List.Forall₂ (Denotes env') (freshOperands n (ops.map Operand.ty)) stack := by
  induction ops generalizing n env stack with
  | nil =>
    cases h
    exact ⟨env, .nil env, .refl env, hfresh, .nil⟩
  | cons op ops ih =>
    cases h with
    | @cons _ v _ stack hop hops =>
      have hnone := hfresh n (Nat.le_refl _)
      have heval : (Expr.atom op.atom).eval env = some (.ok v) := by
        rw [Expr.eval, hop.eval]
        rfl
      have hset := Extends.set hnone v
      obtain ⟨env', hrun, hext, hfresh', hden⟩ :=
        ih (hops.imp fun _ _ hd => hd.extend hset) (hfresh.set v)
      refine ⟨env', (straight_bind hnone heval hop.type).append hrun, hset.trans hext, ?_, ?_⟩
      · rw [List.length_cons, Nat.add_comm ops.length, ← Nat.add_assoc]
        exact hfresh'
      · refine .cons ?_ hden
        rw [← hop.type]
        exact .bound (hext.temps n _ Env.set_self)

end Straight

/-! ### States -/

/-- The environment is that of a builder, with these locals and these values on the stack. -/
structure Rel (b : Builder) (locals stack : List Value) (env : Env) : Prop where
  slots : ∀ index, env (.slot index) = locals[index]?
  types : locals.map Value.type = b.locals
  operands : List.Forall₂ (Denotes env) b.current.stack stack
  fresh : Fresh b.nextVar env
  targets : ∀ exit ∈ b.exits, ∀ n, .temp n ∈ exit.target.vars → (env (.temp n)).isSome

/-- The values have been put into the variables of a target; the other variables that were in scope
before have kept their values. -/
structure Arrives (b : Builder) (env : Env) (target : Target) (locals values : List Value)
    (env' : Env) : Prop where
  slots : ∀ index, env' (.slot index) = locals[index]?
  types : locals.map Value.type = b.locals
  carried : target.vars.map env' = values.reverse.map some
  valueTypes : values.map Value.type = target.types.reverse
  kept : ∀ n v, .temp n ∉ target.vars → env (.temp n) = some v → env' (.temp n) = some v

/-- What the lines of a branch do in the end, for a target that is not the function. -/
def Exit.leave (exit : Exit) (env : Env) : Control :=
  match exit.kind with
  | .loop => .continueTo exit.label env
  | _ => .breakTo exit.label env

lemma Exit.leave_andThen (exit : Exit) (env : Env) (k : Env → Control) :
    (exit.leave env).andThen k = exit.leave env := by
  unfold Exit.leave
  split <;> rfl

lemma Exit.leave_within (exit : Exit) (outer env : Env) :
    (exit.leave env).within outer = exit.leave (outer.leave env) := by
  unfold Exit.leave
  split <;> rfl

/-- Lines that were written between two builders do what the instructions do. -/
inductive Follows (b b' : Builder) (env : Env) : Flow → Control → Prop
  | next {locals stack : List Value} {env' : Env} (hreached : b'.current.unreachable = false)
      (hrel : Rel b' locals stack env')
      (hkept : ∀ n v, env (.temp n) = some v → env' (.temp n) = some v) :
      Follows b b' env (.next locals stack) (.next env')
  | branch {depth : Nat} {exit : Exit} {locals values : List Value} {env' : Env}
      (hexit : b.exits[depth]? = some exit) (hkind : exit.kind ≠ .function)
      (harrives : Arrives b env exit.target locals values env') :
      Follows b b' env (.branch depth locals values) (exit.leave env')
  | ret {depth : Nat} {exit : Exit} {locals values : List Value}
      (hexit : b.exits[depth]? = some exit) (hkind : exit.kind = .function) :
      Follows b b' env (.branch depth locals values) (.returned values.reverse)
  | trap (t : Trap) : Follows b b' env (.trap t) (.trapped t)
  | outOfFuel : Follows b b' env .outOfFuel .outOfFuel

/-- The builders differ by lines that read as the trees, and these do what `eval` does. -/
structure Translates (b b' : Builder) (trees : List Tree)
    (eval : Nat → List Value → List Value → Flow) : Prop where
  emitted : ∃ lines, b'.out = b.out ++ lines.toArray ∧ Parses lines trees
  vars : b.nextVar ≤ b'.nextVar
  labels : b.nextLabel ≤ b'.nextLabel
  follows : ∀ fuel locals stack env, Rel b locals stack env →
    Follows b b' env (eval fuel locals stack) (execAll fuel trees env)

section Sequencing

variable {b b₁ b₂ : Builder} {env env₁ : Env}

/-- What follows from a later place follows from an earlier one with the same frames around. -/
lemma Follows.from_earlier {flow : Flow} {control : Control} (h : Follows b₁ b₂ env₁ flow control)
    (hexits : b₁.exits = b.exits) (hlocals : b₁.locals = b.locals)
    (hkept : ∀ n v, env (.temp n) = some v → env₁ (.temp n) = some v) :
    Follows b b₂ env flow control := by
  cases h with
  | next hreached hrel hkept' => exact .next hreached hrel fun n v hv => hkept' n v (hkept n v hv)
  | branch hexit hkind harrives =>
    refine .branch (hexits ▸ hexit) hkind ⟨harrives.slots, hlocals ▸ harrives.types,
      harrives.carried, harrives.valueTypes, fun n v hmem hv => ?_⟩
    exact harrives.kept n v hmem (hkept n v hv)
  | ret hexit hkind => exact .ret (hexits ▸ hexit) hkind
  | trap t => exact .trap t
  | outOfFuel => exact .outOfFuel

/-- Trees one after the other do what evaluations one after the other do. -/
lemma Translates.andThen {trees trees' : List Tree} {eval eval' : Nat → List Value → List Value → Flow}
    (h : Translates b b₁ trees eval) (h' : Translates b₁ b₂ trees' eval')
    (hexits : b₁.exits = b.exits) (hlocals : b₁.locals = b.locals) :
    Translates b b₂ (trees ++ trees') fun fuel locals stack =>
      (eval fuel locals stack).andThen (eval' fuel) where
  emitted := by
    obtain ⟨lines, hout, hparses⟩ := h.emitted
    obtain ⟨lines', hout', hparses'⟩ := h'.emitted
    refine ⟨lines ++ lines', ?_, hparses.append hparses'⟩
    simp only [hout', hout, Array.append_assoc, List.append_toArray]
  vars := Nat.le_trans h.vars h'.vars
  labels := Nat.le_trans h.labels h'.labels
  follows := by
    intro fuel locals stack env hrel
    have hfirst := h.follows fuel locals stack env hrel
    rw [execAll_append]
    generalize eval fuel locals stack = flow at hfirst ⊢
    generalize execAll fuel trees env = control at hfirst ⊢
    cases hfirst with
    | next _ hrel' hkept => exact (h'.follows fuel _ _ _ hrel').from_earlier hexits hlocals hkept
    | branch hexit hkind harrives =>
      rw [Exit.leave_andThen]
      exact .branch hexit hkind harrives
    | ret hexit hkind => exact .ret hexit hkind
    | trap t => exact .trap t
    | outOfFuel => exact .outOfFuel

/-- Where the end is not reached, what would come next does not matter. -/
lemma Translates.andThen_unreached {trees : List Tree} {eval : Nat → List Value → List Value → Flow}
    (h : Translates b b₁ trees eval) (hunreached : b₁.current.unreachable = true)
    (k : Nat → List Value → List Value → Flow) :
    Translates b b₁ trees fun fuel locals stack => (eval fuel locals stack).andThen (k fuel) where
  emitted := h.emitted
  vars := h.vars
  labels := h.labels
  follows := by
    intro fuel locals stack env hrel
    have hfirst := h.follows fuel locals stack env hrel
    generalize eval fuel locals stack = flow at hfirst ⊢
    generalize execAll fuel trees env = control at hfirst ⊢
    cases hfirst with
    | next hreached _ _ =>
      rw [hunreached] at hreached
      cases hreached
    | branch hexit hkind harrives => exact .branch hexit hkind harrives
    | ret hexit hkind => exact .ret hexit hkind
    | trap t => exact .trap t
    | outOfFuel => exact .outOfFuel

end Sequencing

end WasmAot.Lowering
