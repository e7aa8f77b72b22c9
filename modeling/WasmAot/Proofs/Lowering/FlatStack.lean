/-
# One stack behind the frames

The operands are kept in the frames of the constructs in which they were pushed.  An instruction sees
nothing of this: it works on one stack, which is what the frames hold, one after the other, from the
function's own to the innermost (`Builder.flat`).  This file shows that the operations of the builder
are those of the one stack.

* Looking at operands and taking them off concerns the end of the one stack, and fails exactly if the
  stack is too short.
* Taking operands off goes through the frames one operand at a time, always at the innermost frame
  that is not empty (`Takes`).  What the walk leaves is described frame by frame (`dropOperands`); the
  two are compared by induction on the number of operands.
* An operation that fails leaves the builder as it was.  For most of them this is so because they fail
  before they change anything (`Atomic`); where one could still fail afterwards, it is shown that it
  does not.
-/
import WasmAot.Proofs.Lowering.BranchTable

namespace WasmAot.Lowering

open Code Stateful

/-! ### The one stack -/

namespace Builder

/-- All operands on one stack: those of the function's own frame first, those of the innermost
construct last, and those of each frame from its bottom to its top. -/
def flat (b : Builder) : List Operand :=
  b.frames.reverse.flatMap fun frame => frame.stack.reverse

/-- The last `n` operands of the one stack. -/
def last (b : Builder) (n : Nat) : List Operand :=
  b.flat.drop (b.flat.length - n)

lemma flat_eq (b : Builder) : b.flat = b.operands.reverse := by
  rw [flat, operands, List.reverse_flatMap]
  rfl

@[simp] lemma length_flat (b : Builder) : b.flat.length = b.operands.length := by
  rw [flat_eq, List.length_reverse]

lemma last_eq (b : Builder) (n : Nat) : b.last n = (b.operands.take n).reverse := by
  rw [last, length_flat, flat_eq, List.reverse_take]

lemma flat_popped (b : Builder) (n : Nat) :
    (b.popped n).flat = b.flat.take (b.flat.length - n) := by
  rw [flat_eq, operands_popped, length_flat, flat_eq, List.reverse_drop]

end Builder

/-! ### Operand by operand -/

/-- One operand is taken off the frames, innermost first.  A frame is passed over only if it holds
nothing. -/
inductive TakesOne : List Frame → Operand → List Frame → Prop
  | here {frame : Frame} {outer : List Frame} {op : Operand} {below : List Operand}
      (hstack : frame.stack = op :: below) :
      TakesOne (frame :: outer) op ({ frame with stack := below } :: outer)
  | outward {frame : Frame} {outer outer' : List Frame} {op : Operand} (hempty : frame.stack = [])
      (htake : TakesOne outer op outer') : TakesOne (frame :: outer) op (frame :: outer')

/-- Operands are taken off the frames, one after the other. -/
inductive Takes : List Frame → List Operand → List Frame → Prop
  | none (frames : List Frame) : Takes frames [] frames
  | more {frames frames₁ frames₂ : List Frame} {op : Operand} {ops : List Operand}
      (hone : TakesOne frames op frames₁) (hrest : Takes frames₁ ops frames₂) :
      Takes frames (op :: ops) frames₂

lemma dropOperands_dropOperands (m n : Nat) (frames : List Frame) :
    dropOperands m (dropOperands n frames) = dropOperands (n + m) frames := by
  induction frames generalizing m n with
  | nil => rfl
  | cons frame outer ih =>
    -- what is left to take outside of the frame is the same in both ways
    have hleft : n - frame.stack.length + (m - (frame.stack.length - n)) =
        n + m - frame.stack.length := by omega
    simp only [dropOperands, List.drop_drop, List.length_drop, ih, hleft]

lemma takesOne_dropOperands {frames : List Frame} {op : Operand} {rest : List Operand}
    (h : frames.flatMap Frame.stack = op :: rest) : TakesOne frames op (dropOperands 1 frames) := by
  induction frames with
  | nil => simp at h
  | cons frame outer ih =>
    cases hstack : frame.stack with
    | nil =>
      simp only [List.flatMap_cons, hstack, List.nil_append] at h
      have hframe : { frame with stack := [] } = frame := by rw [← hstack]
      simp only [dropOperands, hstack, List.drop_nil, List.length_nil, Nat.sub_zero, hframe]
      exact .outward hstack (ih h)
    | cons top below =>
      simp only [List.flatMap_cons, hstack, List.cons_append, List.cons.injEq] at h
      obtain ⟨rfl, -⟩ := h
      simp only [dropOperands, hstack, List.drop_succ_cons, List.drop_zero, List.length_cons,
        Nat.sub_eq_zero_of_le (Nat.le_add_left ..), dropOperands_zero]
      exact .here hstack

/-- Taking a number of operands off at once is taking off one after the other. -/
lemma takes_dropOperands {frames : List Frame} {n : Nat}
    (h : n ≤ (frames.flatMap Frame.stack).length) :
    Takes frames ((frames.flatMap Frame.stack).take n) (dropOperands n frames) := by
  induction n generalizing frames with
  | zero =>
    rw [List.take_zero, dropOperands_zero]
    exact .none frames
  | succ n ih =>
    cases hflat : frames.flatMap Frame.stack with
    | nil => simp [hflat] at h
    | cons op rest =>
      -- one operand is taken off here, and the others by the induction hypothesis
      have hrest : (dropOperands 1 frames).flatMap Frame.stack = rest := by
        rw [stacks_dropOperands, hflat]
        rfl
      have hlength : n ≤ ((dropOperands 1 frames).flatMap Frame.stack).length := by
        rw [hflat, List.length_cons] at h
        rw [hrest]
        omega
      have hmore := ih hlength
      rw [hrest, dropOperands_dropOperands, Nat.add_comm] at hmore
      exact .more (takesOne_dropOperands hflat) hmore

/-! ### Looking at operands and taking them off -/

section

variable {b : Builder} {n : Nat}

lemma takes_popped (h : n ≤ b.flat.length) :
    Takes b.frames (b.last n).reverse (b.popped n).frames := by
  rw [Builder.last_eq, List.reverse_reverse]
  rw [Builder.length_flat] at h
  exact takes_dropOperands h

lemma peekOperands_ok (h : n ≤ b.flat.length) : peekOperands n b = .ok (b.last n) b := by
  rw [Builder.length_flat] at h
  simp only [peekOperands_eq, bind_run, get_run, if_pos h, pure_run, Builder.last_eq]

lemma peekOperands_underflow (h : b.flat.length < n) :
    peekOperands n b = .error (.stackUnderflow n b.flat.length) b := by
  rw [Builder.length_flat] at h
  simp only [peekOperands_eq, bind_run, get_run, if_neg (Nat.not_le.2 h), throw_run,
    Builder.length_flat]

lemma topTypes_ok (h : n ≤ b.flat.length) :
    topTypes n b = .ok ((b.last n).map Operand.ty) b :=
  bind_run_ok (peekOperands_ok h)

lemma topTypes_underflow (h : b.flat.length < n) :
    topTypes n b = .error (.stackUnderflow n b.flat.length) b :=
  bind_run_error (peekOperands_underflow h)

lemma pop_ok (h : n ≤ b.flat.length) : pop n b = .ok (b.last n) (b.popped n) := by
  rw [pop_eq, bind_run_ok (peekOperands_ok h)]
  rfl

lemma pop_underflow (h : b.flat.length < n) :
    pop n b = .error (.stackUnderflow n b.flat.length) b := by
  rw [pop_eq, bind_run_error (peekOperands_underflow h)]

variable {types : List ValType}

/-- Operands of the right types are taken off as they would be without a look at their types. -/
lemma popAtoms_ok (h : types.length ≤ b.flat.length)
    (htypes : (b.last types.length).map Operand.ty = types) :
    popAtoms types b =
      .ok ((b.last types.length).map Operand.atom) (b.popped types.length) := by
  have hpeek : peekAtoms types b = .ok (b.last types.length) b := by
    rw [peekAtoms, bind_run_ok (peekOperands_ok h), bind_run, expectTypes, if_pos htypes]
    rfl
  have hpop : popOperandsOf types b = .ok (b.last types.length) (b.popped types.length) := by
    rw [popOperandsOf, bind_run_ok hpeek, pop_ok h]
  rw [popAtoms, bind_run_ok hpop, pure_run]

lemma popAtoms_underflow (h : b.flat.length < types.length) :
    popAtoms types b = .error (.stackUnderflow types.length b.flat.length) b :=
  bind_run_error (bind_run_error (bind_run_error (peekOperands_underflow h)))

lemma popAtoms_mismatch (h : types.length ≤ b.flat.length)
    (htypes : (b.last types.length).map Operand.ty ≠ types) :
    popAtoms types b =
      .error (.typeMismatch (.operands types ((b.last types.length).map Operand.ty))) b := by
  have hpeek : peekAtoms types b =
      .error (.typeMismatch (.operands types ((b.last types.length).map Operand.ty))) b := by
    rw [peekAtoms, bind_run_ok (peekOperands_ok h), bind_run, expectTypes, if_neg htypes]
    rfl
  exact bind_run_error (bind_run_error hpeek)

end

/-! ### Operations that fail -/

/-- An operation that fails leaves the whole builder as it was. -/
abbrev FailsCleanly {α : Type} (x : Build α) : Prop :=
  Atomic id x

lemma keeps_checkAvailable (n : Nat) : Keeps id (checkAvailable n) := by
  refine Keeps.get.bind fun b => ?_
  dsimp only
  split
  · exact .throw _
  · exact .pure _

lemma keeps_peekOperands (n : Nat) : Keeps id (peekOperands n) :=
  (keeps_checkAvailable n).bind fun _ => Keeps.get.bind fun _ => .pure _

lemma keeps_expectTypes (expected found : List ValType) : Keeps id (expectTypes expected found) := by
  unfold expectTypes
  split
  · exact .pure _
  · exact .throw _

lemma keeps_expectTop (ty : ValType) (n : Nat) : Keeps id (expectTop ty n) :=
  ((keeps_peekOperands n).bind fun _ => .pure _).bind fun _ => keeps_expectTypes _ _

lemma keeps_peekAtoms (types : List ValType) : Keeps id (peekAtoms types) :=
  (keeps_peekOperands _).bind fun _ => (keeps_expectTypes _ _).bind fun _ => .pure _

lemma failsCleanly_pop (n : Nat) : FailsCleanly (pop n) :=
  (keeps_checkAvailable n).before fun _ => Throws.atomic
    (Throws.get.bind fun _ => (Throws.set _).bind fun _ => .pure _)

lemma failsCleanly_popAtoms (types : List ValType) : FailsCleanly (popAtoms types) := by
  refine Atomic.andThen ?_ fun _ => .pure _
  exact (keeps_peekAtoms types).before fun _ => failsCleanly_pop _

/-- What comes after one operand was taken off never finds that there was none. -/
lemma failsCleanly_popAtom (ty : ValType) : FailsCleanly (popAtom ty) := by
  intro b e b' hrun
  rcases of_bind_run_error hrun with hfirst | ⟨atoms, b₁, hfirst, hsecond⟩
  · exact failsCleanly_popAtoms [ty] hfirst
  · obtain ⟨top, rfl, hlength, -⟩ := operands_of_popAtoms hfirst
    obtain ⟨op, rfl⟩ := List.length_eq_one_iff.1 hlength
    cases hsecond

lemma failsCleanly_popOperand : FailsCleanly popOperand := by
  intro b e b' hrun
  rcases of_bind_run_error hrun with hfirst | ⟨ops, b₁, hfirst, hsecond⟩
  · exact failsCleanly_pop 1 hfirst
  · obtain ⟨top, rfl, hlength, -⟩ := operands_of_pop hfirst
    obtain ⟨op, rfl⟩ := List.length_eq_one_iff.1 hlength
    cases hsecond

lemma keeps_typeOfLocal (index : Nat) : Keeps id (typeOfLocal index) := by
  refine Keeps.get.bind fun b => ?_
  split
  · exact .pure _
  · exact .throw _

lemma failsCleanly_getLocal (index : Nat) : FailsCleanly (getLocal index) :=
  (keeps_typeOfLocal index).before fun _ => Throws.atomic (.modify _)

/-- Operands are bound to variables without any check. -/
lemma settle_never_fails (which : Nat → Bool) : Throws (fun _ => False) (settle which) := by
  have hstack (ops : List Operand) : Throws (fun _ => False) (settleStack which ops) := by
    intro b e b' hrun
    rw [settleStack_run] at hrun
    cases hrun
  have hframes (frames : List Frame) : Throws (fun _ => False) (settleFrames which frames) := by
    induction frames with
    | nil => exact .pure _
    | cons frame outer ih => exact ih.bind fun _ => (hstack _).map _
  exact Throws.get.bind fun b => (hframes _).bind fun _ => (hstack _).bind fun _ => .modify _

lemma emit_never_fails (line : Line) : Throws (fun _ => False) (emit line) :=
  .modify _

lemma failsCleanly_setLocal (index : Nat) : FailsCleanly (setLocal index) :=
  (keeps_typeOfLocal index).before fun ty => (failsCleanly_popAtom ty).andThen fun _ =>
    (settle_never_fails _).bind fun _ => (emit_never_fails _).bind fun _ => .pure _

lemma pop_keeps_locals (n : Nat) : Keeps Builder.locals (pop n) := by
  rw [pop_eq]
  refine (keeps_peekOperands n).of_id.bind fun ops => ?_
  exact Keeps.bind (.modify fun b => rfl) fun _ => .pure _

lemma popAtom_keeps_locals (ty : ValType) : Keeps Builder.locals (popAtom ty) := by
  have hatoms : Keeps Builder.locals (popAtoms [ty]) :=
    ((keeps_peekAtoms [ty]).of_id.bind fun _ => pop_keeps_locals _).bind fun _ => .pure _
  refine hatoms.bind fun atoms => ?_
  cases atoms with
  | nil => exact .throw _
  | cons atom atoms => exact .pure _

lemma settleStack_keeps_locals (which : Nat → Bool) (ops : List Operand) :
    Keeps Builder.locals (settleStack which ops) := by
  constructor
  · intro b ops' b' hrun
    rw [settleStack_run] at hrun
    cases hrun
    rfl
  · intro b e b' hrun
    rw [settleStack_run] at hrun
    cases hrun

lemma settle_keeps_locals (which : Nat → Bool) : Keeps Builder.locals (settle which) := by
  have hframes (frames : List Frame) : Keeps Builder.locals (settleFrames which frames) := by
    induction frames with
    | nil => exact .pure _
    | cons frame outer ih =>
      exact ih.bind fun _ => (settleStack_keeps_locals which _).bind fun _ => .pure _
  refine Keeps.get.bind fun b => (hframes _).bind fun _ => ?_
  refine (settleStack_keeps_locals which _).bind fun _ => ?_
  exact .modify fun b => rfl

/-- A write to a local does not change which locals there are. -/
lemma setLocal_keeps_locals (index : Nat) : Keeps Builder.locals (setLocal index) := by
  refine (keeps_typeOfLocal index).of_id.bind fun ty => (popAtom_keeps_locals ty).bind fun value => ?_
  refine (settle_keeps_locals _).bind fun _ => Keeps.bind (.modify fun b => ?_) fun _ => .pure _
  rfl

/-- If the local could be written it can be read. -/
lemma failsCleanly_teeLocal (index : Nat) : FailsCleanly (teeLocal index) := by
  intro b e b' hrun
  rcases of_bind_run_error hrun with hfirst | ⟨name, b₁, hfirst, hsecond⟩
  · exact failsCleanly_setLocal index hfirst
  · have hlocals := (setLocal_keeps_locals index).of_ok hfirst
    obtain ⟨ty, b₂, htype, -⟩ := of_bind_run_ok hfirst
    cases hlocal : b.locals[index]? with
    | none =>
      rw [typeOfLocal, bind_run_ok (get_run b), hlocal] at htype
      cases htype
    | some ty' =>
      rw [getLocal_run (hlocals ▸ hlocal)] at hsecond
      cases hsecond

lemma keeps_targetFrame (levels : Nat) : Keeps id (targetFrame levels) := by
  refine Keeps.get.bind fun b => ?_
  split
  · exact .pure _
  · exact .throw _

lemma failsCleanly_branchTarget (levels : Nat) : FailsCleanly (branchTarget levels) :=
  ((keeps_targetFrame levels).bind fun _ => .pure _).atomic

lemma failsCleanly_branchOut (levels : Nat) (values : List Atom) :
    FailsCleanly (branchOut levels values) := by
  have hassign (vars : List Name) : Throws (fun _ => False) (assignAll vars values) := by
    intro b e b' hrun
    rw [assignAll_run] at hrun
    cases hrun
  refine (keeps_targetFrame levels).before fun frame => ?_
  split
  · -- the number of values is right, and from here on lines are written
    refine Throws.atomic ?_
    split
    · exact emit_never_fails _
    all_goals exact (hassign _).bind fun _ => emit_never_fails _
  · exact (Keeps.throw _).atomic

/-! ### The builder and the one stack -/

/-- The operations on the operands of the builder are those of the one stack. -/
structure Builder.RefinesFlat (b : Builder) : Prop where
  /-- there is one reason to fail, and it is the same for all three -/
  peek_fails_iff : ∀ n e b', peekOperands n b = .error e b' ↔
    b.flat.length < n ∧ e = .stackUnderflow n b.flat.length ∧ b' = b
  types_fails_iff : ∀ n e b', topTypes n b = .error e b' ↔
    b.flat.length < n ∧ e = .stackUnderflow n b.flat.length ∧ b' = b
  pop_fails_iff : ∀ n e b', pop n b = .error e b' ↔
    b.flat.length < n ∧ e = .stackUnderflow n b.flat.length ∧ b' = b
  peeked : ∀ n ≤ b.flat.length, peekOperands n b = .ok (b.last n) b
  types : ∀ n ≤ b.flat.length, topTypes n b = .ok ((b.last n).map Operand.ty) b
  popped : ∀ n ≤ b.flat.length, ∃ b', pop n b = .ok (b.last n) b' ∧
    b'.flat = b.flat.take (b.flat.length - n) ∧ Takes b.frames (b.last n).reverse b'.frames ∧
      b'.locals = b.locals ∧ b'.nextVar = b.nextVar ∧ b'.nextLabel = b.nextLabel ∧ b'.out = b.out
  popTyped_iff : ∀ types, (∃ atoms b', popAtoms types b = .ok atoms b') ↔
    types.length ≤ b.flat.length ∧ (b.last types.length).map Operand.ty = types
  popTyped : ∀ types atoms b', popAtoms types b = .ok atoms b' →
    pop types.length b = .ok (b.last types.length) b' ∧
      atoms = (b.last types.length).map Operand.atom

/-- An operation on the one stack that succeeds if there are `n` operands fails if there are fewer. -/
lemma fails_iff {α : Type} {x : Build α} {b : Builder} {n : Nat} {a : α} {after : Builder}
    (hok : n ≤ b.flat.length → x b = .ok a after)
    (hshort : b.flat.length < n → x b = .error (.stackUnderflow n b.flat.length) b)
    (e : Error) (b' : Builder) :
    x b = .error e b' ↔ b.flat.length < n ∧ e = .stackUnderflow n b.flat.length ∧ b' = b := by
  constructor
  · intro hrun
    rcases Nat.lt_or_ge b.flat.length n with hlt | hle
    · rw [hshort hlt] at hrun
      cases hrun
      exact ⟨hlt, rfl, rfl⟩
    · rw [hok hle] at hrun
      cases hrun
  · rintro ⟨hlt, rfl, rfl⟩
    exact hshort hlt

lemma popAtoms_cases {b b' : Builder} {types : List ValType} {atoms : List Atom}
    (hrun : popAtoms types b = .ok atoms b') :
    types.length ≤ b.flat.length ∧ (b.last types.length).map Operand.ty = types ∧
      atoms = (b.last types.length).map Operand.atom ∧ b' = b.popped types.length := by
  rcases Nat.lt_or_ge b.flat.length types.length with hlt | hle
  · rw [popAtoms_underflow hlt] at hrun
    cases hrun
  · by_cases htypes : (b.last types.length).map Operand.ty = types
    · rw [popAtoms_ok hle htypes] at hrun
      cases hrun
      exact ⟨hle, htypes, rfl, rfl⟩
    · rw [popAtoms_mismatch hle htypes] at hrun
      cases hrun

lemma refinesFlat (b : Builder) : b.RefinesFlat where
  peek_fails_iff n := fails_iff peekOperands_ok peekOperands_underflow
  types_fails_iff n := fails_iff topTypes_ok topTypes_underflow
  pop_fails_iff n := fails_iff pop_ok pop_underflow
  peeked n := peekOperands_ok
  types n := topTypes_ok
  popped n hle :=
    ⟨b.popped n, pop_ok hle, b.flat_popped n, takes_popped hle, rfl, rfl, rfl, rfl⟩
  popTyped_iff types := by
    constructor
    · rintro ⟨atoms, b', hrun⟩
      obtain ⟨hle, htypes, -, -⟩ := popAtoms_cases hrun
      exact ⟨hle, htypes⟩
    · rintro ⟨hle, htypes⟩
      exact ⟨_, _, popAtoms_ok hle htypes⟩
  popTyped types atoms b' hrun := by
    obtain ⟨hle, -, rfl, rfl⟩ := popAtoms_cases hrun
    exact ⟨pop_ok hle, rfl⟩

/-- What the builder is after an operation has failed: what it was before. -/
structure FailuresChangeNothing : Prop where
  pop : ∀ n, FailsCleanly (pop n)
  peek : ∀ n, FailsCleanly (peekOperands n)
  typed : ∀ ty n, FailsCleanly (expectTop ty n)
  popTyped : ∀ types, FailsCleanly (popAtoms types)
  popOne : ∀ ty, FailsCleanly (popAtom ty)
  popAny : FailsCleanly popOperand
  getLocal : ∀ index, FailsCleanly (getLocal index)
  setLocal : ∀ index, FailsCleanly (setLocal index)
  teeLocal : ∀ index, FailsCleanly (teeLocal index)
  branchTarget : ∀ levels, FailsCleanly (branchTarget levels)
  branchOut : ∀ levels values, FailsCleanly (branchOut levels values)

/-- The frames are one stack to all operations, and an operation that fails has done nothing. -/
theorem operands_refine_flatStack :
    (∀ b : Builder, b.RefinesFlat) ∧ FailuresChangeNothing := by
  refine ⟨refinesFlat, ?_⟩
  exact {
    pop := failsCleanly_pop
    peek := fun n => (keeps_peekOperands n).atomic
    typed := fun ty n => (keeps_expectTop ty n).atomic
    popTyped := failsCleanly_popAtoms
    popOne := failsCleanly_popAtom
    popAny := failsCleanly_popOperand
    getLocal := failsCleanly_getLocal
    setLocal := failsCleanly_setLocal
    teeLocal := failsCleanly_teeLocal
    branchTarget := failsCleanly_branchTarget
    branchOut := failsCleanly_branchOut }

end WasmAot.Lowering
