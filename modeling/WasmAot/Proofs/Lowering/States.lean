/-
# The states of a lowering

The lowering of a body is a loop, and what holds in all its states is what holds in the states
between its turns.  Two kinds of states lie within a turn and count as well: the one between the two
arms of a conditional, in which neither is open, and the one in which a turn stops with an error.

The frames of every such state lie one inside of the other: each was opened when the one before it
was the innermost, and the frames around it have not been left since (`Nested`).
-/
import WasmAot.Proofs.Lowering.Depth

namespace WasmAot.Lowering

open Code Stateful

/-! ### The states of a lowering -/

/-- The loop that lowers a body comes to this state, with these tasks left. -/
inductive Visits (m : Module) (body : List Instr) (start : Builder) : List Task → Builder → Prop
  | start : Visits m body start [.run body] start
  | turn {task : Task} {tasks tasks' : List Task} {b b' : Builder}
      (hvisits : Visits m body start (task :: tasks) b)
      (hturn : turn m task tasks b = .ok tasks' b') : Visits m body start tasks' b'

/-- The lowering of a body passes this state: between two turns of its loop, between the two arms of
a conditional, or where it stops with an error. -/
inductive Passes (m : Module) (body : List Instr) (start : Builder) : Builder → Prop
  | between {tasks : List Task} {b : Builder} (hvisits : Visits m body start tasks b) :
      Passes m body start b
  | arms {arm : ElseArm} {elseBody : List Instr} {tasks : List Task} {b b' : Builder}
      (hvisits : Visits m body start (.second arm elseBody :: tasks) b)
      (hend : endThen b = .ok () b') : Passes m body start b'
  | stopped {task : Task} {tasks : List Task} {e : Error} {b b' : Builder}
      (hvisits : Visits m body start (task :: tasks) b)
      (hturn : turn m task tasks b = .error e b') : Passes m body start b'

section

variable {m : Module} {body : List Instr} {start b b' : Builder} {tasks tasks' : List Task}

lemma Visits.turns (hvisits : Visits m body start tasks b) {n : Nat}
    (hrun : turns m n tasks b = .ok tasks' b') : Visits m body start tasks' b' := by
  induction n generalizing tasks b with
  | zero =>
    cases hrun
    exact hvisits
  | succ n ih =>
    cases tasks with
    | nil =>
      cases hrun
      exact hvisits
    | cons task tasks =>
      obtain ⟨tasks₁, b₁, hturn, hrest⟩ := of_bind_run_ok hrun
      exact ih (hvisits.turn hturn) hrest

lemma Visits.turns_error (hvisits : Visits m body start tasks b) {n : Nat} {e : Error}
    (hrun : Lowering.turns m n tasks b = .error e b') : Passes m body start b' := by
  induction n generalizing tasks b with
  | zero => cases hrun
  | succ n ih =>
    cases tasks with
    | nil => cases hrun
    | cons task tasks =>
      rcases of_bind_run_error hrun with hturn | ⟨tasks₁, b₁, hturn, hrest⟩
      · exact .stopped hvisits hturn
      · exact ih (hvisits.turn hturn) hrest

/-- However the lowering of a body ends, it passes the state that it ends in. -/
lemma passes_of_lowerBody
    (h : lowerBody m body start = .ok () b ∨ ∃ e, lowerBody m body start = .error e b) :
    Passes m body start b := by
  have hturns := turns_eq_runTasks m (Nat.le_refl (tasksWeight [.run body]))
  rcases h with hrun | ⟨e, hrun⟩
  · have hall : turns m (tasksWeight [.run body]) [.run body] start = .ok [] b := by
      rw [hturns]
      exact bind_run_ok hrun
    exact .between (Visits.start.turns hall)
  · have hall : turns m (tasksWeight [.run body]) [.run body] start = .error e b := by
      rw [hturns]
      exact bind_run_error hrun
    exact Visits.start.turns_error hall

end

/-! ### Frames inside of frames -/

/-- The frames from the function's own one inward, without what changes while a body is lowered. -/
def Builder.chain (b : Builder) : List (FrameKind × Label × Target × Target) :=
  (b.frames.map Frame.shape).reverse

lemma Builder.length_chain (b : Builder) : b.chain.length = b.depth + 1 := by
  simp [chain, frames, depth]

lemma Builder.chain_eq (b : Builder) : b.chain = (b.outlines.map Frame.shape).reverse := by
  rw [outlines, List.map_map]
  rfl

lemma OneMore.chain {b b' : Builder} (h : OneMore b.outlines b'.outlines) :
    ∃ shape, b'.chain = b.chain ++ [shape] := by
  obtain ⟨frame, -, hframes⟩ := h
  refine ⟨frame.shape, ?_⟩
  rw [b.chain_eq, b'.chain_eq, hframes, List.map_cons, List.reverse_cons]

/-- A construct, or the second arm of a conditional, is opened. -/
inductive Opens (m : Module) (b b' : Builder) : Prop
  | block {ty : BlockType} {results : Target} (hrun : openBlock m ty b = .ok results b')
  | loop {ty : BlockType} {results : Target} (hrun : openLoop m ty b = .ok results b')
  | firstArm {ty : BlockType} {hasElse : Bool} {arm : ElseArm}
      (hrun : openIf m ty hasElse b = .ok arm b')
  | secondArm {arm : ElseArm} (hrun : openElse arm b = .ok () b')

lemma Opens.oneMore {m : Module} {b b' : Builder} (h : Opens m b b') :
    OneMore b.outlines b'.outlines := by
  cases h with
  | block hrun => exact shifts_openBlock _ _ hrun
  | loop hrun => exact shifts_openLoop _ _ hrun
  | firstArm hrun => exact shifts_openIf _ _ _ hrun
  | secondArm hrun => exact shifts_openElse _ hrun

/-- Each frame but the function's own was opened inside of the one before it: frame `i + 1` was
opened when the frames were those up to `i`, and these have not been left since. -/
def Nested (m : Module) (body : List Instr) (start b : Builder) : Prop :=
  ∀ i < b.depth, ∃ b₀ b₁, Passes m body start b₀ ∧ Opens m b₀ b₁ ∧
    b₀.chain = b.chain.take (i + 1) ∧ b₁.chain = b.chain.take (i + 2)

section

variable {m : Module} {body : List Instr} {start b b' : Builder}

/-- The frames around a place are those of every later place that lies inside of them. -/
lemma Nested.outward (h : Nested m body start b) (hchain : b'.chain <+: b.chain) :
    Nested m body start b' := by
  obtain ⟨inner, hinner⟩ := hchain
  have hlen := congrArg List.length hinner
  rw [List.length_append, b.length_chain, b'.length_chain] at hlen
  intro i hi
  obtain ⟨b₀, b₁, hpasses, hopens, h₀, h₁⟩ := h i (by omega)
  rw [← hinner, List.take_append_of_le_length (by rw [b'.length_chain]; omega)] at h₀ h₁
  exact ⟨b₀, b₁, hpasses, hopens, h₀, h₁⟩

lemma Nested.inward (h : Nested m body start b) (hpasses : Passes m body start b)
    (hopens : Opens m b b') : Nested m body start b' := by
  obtain ⟨shape, hchain⟩ := hopens.oneMore.chain
  have hdepth := hopens.oneMore.depth
  intro i hi
  rcases Nat.lt_or_ge i b.depth with hlt | hge
  · obtain ⟨b₀, b₁, hpasses₀, hopens₀, h₀, h₁⟩ := h i hlt
    rw [hchain, List.take_append_of_le_length (by rw [b.length_chain]; omega),
      List.take_append_of_le_length (by rw [b.length_chain]; omega)]
    exact ⟨b₀, b₁, hpasses₀, hopens₀, h₀, h₁⟩
  · -- the new frame
    obtain rfl : i = b.depth := by omega
    refine ⟨b, b', hpasses, hopens, ?_, ?_⟩
    · rw [hchain, List.take_left' b.length_chain]
    · rw [List.take_of_length_le (by rw [b'.length_chain]; omega)]

end

end WasmAot.Lowering
