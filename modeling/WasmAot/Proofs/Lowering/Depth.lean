/-
# How deep the constructs of a lowered body sit

Lowering refuses to open a construct inside of `maxNesting` others.  The limit is checked where a
construct is opened and nowhere else, on the number of frames around the place; the second arm of a
conditional, which has a frame of its own, is not checked again.

Which constructs are opened can be read off the instructions: those that do not stand behind a
transfer, and are not inside of one that does (`Reached`).  If a body is refused for its nesting,
one of them sits too deep, and if it is lowered, none of them does.
-/
import WasmAot.Proofs.Lowering.Composition
import WasmAot.Proofs.Lowering.Descent
import WasmAot.Proofs.Lowering.FlatStack

namespace WasmAot

/-! ### Constructs that are reached -/

/-- The sequences that an instruction owns. -/
def Instr.bodies : Instr → List (List Instr)
  | .block _ body => [body]
  | .loop _ body => [body]
  | .ifElse _ thenBody elseBody => [thenBody, elseBody]
  | _ => []

/-- There is a construct at this depth in the sequence that neither stands behind a transfer nor is
inside of a construct that does.  The sequence's own constructs are at depth 1. -/
inductive Reached : List Instr → Nat → Prop
  | here {instr : Instr} {rest : List Instr} : instr.bodies ≠ [] → Reached (instr :: rest) 1
  | inside {instr : Instr} {rest body : List Instr} {depth : Nat} :
      body ∈ instr.bodies → Reached body depth → Reached (instr :: rest) (depth + 1)
  | later {instr : Instr} {rest : List Instr} {depth : Nat} :
      instr.isTransfer = false → Reached rest depth → Reached (instr :: rest) depth

lemma Reached.ne_nil {body : List Instr} {depth : Nat} (h : Reached body depth) : body ≠ [] := by
  cases h <;> exact List.cons_ne_nil _ _

namespace Lowering

open Code Stateful

/-! ### Operations without a limit -/

/-- An operation in the innermost frame is not refused for the nesting. -/
lemma Composed.throws {α : Type} {x : Build α} (h : Composed x) : Throws NotDeep x := by
  induction h with
  | pure a => exact .pure a
  | throw h => exact .throw h
  | get => exact .get
  | fresh _ hf =>
    intro b e b' hrun
    rw [bind_run_ok newVar_run] at hrun
    exact hf _ hrun
  | newLabel => exact Throws.get.bind fun _ => (Throws.set _).bind fun _ => .pure _
  | emit | pushOperand | takeOff | markUnreachable => exact .modify _
  | settle which => exact fun _ _ _ hrun => (settle_never_fails which hrun).elim
  | bind _ _ hx hf => exact hx.bind hf

/-! ### Opening a construct -/

lemma Entering.throws {α : Type} {x : Build α} (h : Entering x) : Throws NotDeep x := by
  induction h with
  | enter => exact (Throws.modify _).bind fun _ => .pure _
  | refuse h => exact .throw h
  | after hx _ hf => exact hx.throws.bind hf

section

variable {α : Type} {b b' : Builder}

/-- A construct is refused for its nesting only if the check fails. -/
lemma Opening.le_depth {x : Build α} (hx : Opening x)
    (h : x b = .error (.validation .nestedTooDeeply) b') : maxNesting ≤ b.depth := by
  obtain ⟨f, rfl, hentering⟩ := hx
  by_contra hroom
  rw [bind_run_ok (limitNesting_run (Nat.lt_of_not_le hroom))] at h
  exact hentering.throws h rfl

lemma Opening.depth_lt {x : Build α} (hx : Opening x) {a : α} (h : x b = .ok a b') :
    b.depth < maxNesting := by
  obtain ⟨f, rfl, -⟩ := hx
  by_contra hfull
  rw [bind_run, limitNesting_deep (Nat.le_of_not_lt hfull)] at h
  cases h

end

/-! ### The depth of a place -/

lemma Builder.depth_eq (b : Builder) : b.depth = b.outlines.tail.length := by
  simp [depth, outlines, frames]

lemma Same.depth {b b' : Builder} (h : Same b.outlines b'.outlines) : b'.depth = b.depth := by
  rw [b.depth_eq, b'.depth_eq, show b'.outlines = b.outlines from h]

lemma OneMore.depth {b b' : Builder} (h : OneMore b.outlines b'.outlines) :
    b'.depth = b.depth + 1 := by
  obtain ⟨frame, -, hframes⟩ := h
  rw [b.depth_eq, b'.depth_eq, hframes]
  rfl

/-- Behind an instruction that is no transfer, there are as many frames as before it. -/
lemma depth_of_instr {m : Module} {instr : Instr} {b b' : Builder}
    (htransfer : instr.isTransfer = false) (h : Descent.instr m instr b = .ok () b') :
    b'.depth = b.depth := by
  rw [← lowerInstr_eq_descent] at h
  exact Same.depth (shifts_lowerInstr m instr htransfer h)

/-! ### One instruction -/

/-- What is left to do when the bodies of a construct are done. -/
def finish (scopes : Nat) (results : Target) : Build Unit := do
  closeScopes scopes
  pushAllBound results.vars results.types

lemma throws_finish (scopes : Nat) (results : Target) : Throws NotDeep (finish scopes results) := by
  have hpush (vars : List Name) (types : List ValType) :
      Throws NotDeep (pushAllBound vars types) := by
    induction vars generalizing types with
    | nil => exact .pure _
    | cons var vars ih =>
      cases types with
      | nil => exact .pure _
      | cons ty types => exact (Throws.modify _).bind fun _ => ih types
  exact (composed_closeScopes scopes).throws.bind fun _ => hpush _ _

lemma throws_endThen : Throws NotDeep endThen :=
  composed_fallThrough.throws.bind fun _ => .modify _

lemma instr_simple (m : Module) {instr : Instr} (h : instr.bodies = []) :
    Descent.instr m instr = lowerSimple m instr := by
  cases instr with
  | block | loop | ifElse => cases h
  | _ => simp only [Descent.instr]

lemma instr_block (m : Module) (ty : BlockType) (body : List Instr) :
    Descent.instr m (.block ty body) = (do
      let results ← openBlock m ty
      Descent.seq m body
      endThen
      finish 1 results) := by
  simp only [Descent.instr, endThen, finish, bind_assoc]

lemma instr_loop (m : Module) (ty : BlockType) (body : List Instr) :
    Descent.instr m (.loop ty body) = (do
      let results ← openLoop m ty
      Descent.seq m body
      endThen
      finish 1 results) := by
  simp only [Descent.instr, endThen, finish, bind_assoc]

lemma instr_ifElse (m : Module) (ty : BlockType) (thenBody elseBody : List Instr) :
    Descent.instr m (.ifElse ty thenBody elseBody) = (do
      let arm ← openIf m ty (!elseBody.isEmpty)
      Descent.seq m thenBody
      endThen
      if needsElse elseBody arm.results then do
        openElse arm
        Descent.seq m elseBody
        endThen
        finish 2 arm.results
      else finish 2 arm.results) := by
  simp only [Descent.instr, endThen, finish, bind_assoc]

section

variable {m : Module} {b b' : Builder}

section

variable {α : Type} {x : Build α} {body : List Instr} {rest : α → Build Unit}

/-- When a body was lowered in a frame of its own and the frame is left, there are as many frames as
before. -/
lemma depth_of_arm {a : α} {b₁ b₂ b₃ : Builder} (hopen : Shifts OneMore x) (hx : x b = .ok a b₁)
    (hbody : Descent.seq m body b₁ = .ok () b₂) (hend : endThen b₂ = .ok () b₃) :
    b₃.depth = b.depth := by
  rw [← lowerSeq_eq_descent m body (hopen hx).unreachable] at hbody
  have hrun : (do let _ ← x; lowerSeq m body; endThen; pure ()) b = .ok () b₃ := by
    rw [bind_run_ok hx, bind_run_ok hbody, bind_run_ok hend, pure_run]
  have hsame := hopen.within (fun _ => shifts_lowerSeq m body) fun _ => (Silent.pure ()).shifts
  exact Same.depth (hsame hrun)

/-- If a body in a frame of its own, or what comes behind it, is refused for its nesting, then the
frame was not opened, or the body was refused one deeper, or what comes behind it was. -/
lemma of_arm_tooDeep (hopen : Shifts OneMore x)
    (h : (do let a ← x; Descent.seq m body; endThen; rest a) b =
      .error (.validation .nestedTooDeeply) b') :
    x b = .error (.validation .nestedTooDeeply) b' ∨
      (∃ b₁ : Builder, b₁.depth = b.depth + 1 ∧
        Descent.seq m body b₁ = .error (.validation .nestedTooDeeply) b') ∨
      ∃ a, ∃ b₃ : Builder, b₃.depth = b.depth ∧
        rest a b₃ = .error (.validation .nestedTooDeeply) b' := by
  rcases of_bind_run_error h with hx | ⟨a, b₁, hx, h⟩
  · exact .inl hx
  rcases of_bind_run_error h with hbody | ⟨⟨⟩, b₂, hbody, h⟩
  · exact .inr (.inl ⟨b₁, (hopen hx).depth, hbody⟩)
  rcases of_bind_run_error h with hend | ⟨⟨⟩, b₃, hend, h⟩
  · exact absurd rfl (throws_endThen hend)
  · exact .inr (.inr ⟨a, b₃, depth_of_arm hopen hx hbody hend, h⟩)

lemma of_arm_lowered (hopen : Shifts OneMore x)
    (h : (do let a ← x; Descent.seq m body; endThen; rest a) b = .ok () b') :
    ∃ a, ∃ b₁ b₂ b₃ : Builder, x b = .ok a b₁ ∧ b₁.depth = b.depth + 1 ∧
      Descent.seq m body b₁ = .ok () b₂ ∧ b₃.depth = b.depth ∧ rest a b₃ = .ok () b' := by
  obtain ⟨a, b₁, hx, h⟩ := of_bind_run_ok h
  obtain ⟨⟨⟩, b₂, hbody, h⟩ := of_bind_run_ok h
  obtain ⟨⟨⟩, b₃, hend, h⟩ := of_bind_run_ok h
  exact ⟨a, b₁, b₂, b₃, hx, (hopen hx).depth, hbody, depth_of_arm hopen hx hbody hend, h⟩

end

/-- If an instruction is refused for its nesting, it is a construct, and either there are as many
constructs around it as there may be, or one of its bodies is refused inside of it. -/
lemma step_of_tooDeep {instr : Instr}
    (h : Descent.instr m instr b = .error (.validation .nestedTooDeeply) b') :
    instr.bodies ≠ [] ∧ (maxNesting ≤ b.depth ∨ ∃ body ∈ instr.bodies, ∃ b₁ : Builder,
      b₁.depth = b.depth + 1 ∧
        Descent.seq m body b₁ = .error (.validation .nestedTooDeeply) b') := by
  cases instr with
  | block ty body =>
    refine ⟨List.cons_ne_nil _ _, ?_⟩
    rw [instr_block] at h
    rcases of_arm_tooDeep (shifts_openBlock m ty) h with hopen | hbody | ⟨results, b₃, -, h⟩
    · exact .inl ((opening_block m ty).le_depth hopen)
    · exact .inr ⟨body, List.mem_singleton_self _, hbody⟩
    · exact absurd rfl (throws_finish _ _ h)
  | loop ty body =>
    refine ⟨List.cons_ne_nil _ _, ?_⟩
    rw [instr_loop] at h
    rcases of_arm_tooDeep (shifts_openLoop m ty) h with hopen | hbody | ⟨results, b₃, -, h⟩
    · exact .inl ((opening_loop m ty).le_depth hopen)
    · exact .inr ⟨body, List.mem_singleton_self _, hbody⟩
    · exact absurd rfl (throws_finish _ _ h)
  | ifElse ty thenBody elseBody =>
    refine ⟨List.cons_ne_nil _ _, ?_⟩
    rw [instr_ifElse] at h
    rcases of_arm_tooDeep (shifts_openIf m ty _) h with hopen | hthen | ⟨arm, b₃, hdepth, h⟩
    · exact .inl ((opening_if m ty _).le_depth hopen)
    · exact .inr ⟨thenBody, List.mem_cons_self, hthen⟩
    split at h
    · -- the frame of the first arm was left, so the second one is opened at the same depth
      rcases of_arm_tooDeep (shifts_openElse arm) h with hopen | ⟨b₄, hinside, helse⟩ | ⟨_, _, -, h⟩
      · exact absurd rfl (((Composed.emit _).throws.bind fun _ => Throws.modify _) hopen)
      · exact .inr ⟨elseBody, by simp [Instr.bodies], b₄, by omega, helse⟩
      · exact absurd rfl (throws_finish _ _ h)
    · exact absurd rfl (throws_finish _ _ h)
  | _ =>
    rw [instr_simple m rfl] at h
    exact absurd rfl ((composed_lowerSimple m _).throws h)

/-- If a construct is lowered, there are fewer constructs around it than there may be, and each of
its bodies that is not empty is lowered inside of it. -/
lemma step_of_lowered {instr : Instr} (hbodies : instr.bodies ≠ [])
    (h : Descent.instr m instr b = .ok () b') :
    b.depth < maxNesting ∧ ∀ body ∈ instr.bodies, body ≠ [] → ∃ b₁ b₂ : Builder,
      b₁.depth = b.depth + 1 ∧ Descent.seq m body b₁ = .ok () b₂ := by
  cases instr with
  | block ty body =>
    rw [instr_block] at h
    obtain ⟨results, b₁, b₂, b₃, hopen, hinside, hbody, -⟩ :=
      of_arm_lowered (shifts_openBlock m ty) h
    refine ⟨(opening_block m ty).depth_lt hopen, fun other hother _ => ?_⟩
    rw [List.mem_singleton.1 hother]
    exact ⟨b₁, b₂, hinside, hbody⟩
  | loop ty body =>
    rw [instr_loop] at h
    obtain ⟨results, b₁, b₂, b₃, hopen, hinside, hbody, -⟩ :=
      of_arm_lowered (shifts_openLoop m ty) h
    refine ⟨(opening_loop m ty).depth_lt hopen, fun other hother _ => ?_⟩
    rw [List.mem_singleton.1 hother]
    exact ⟨b₁, b₂, hinside, hbody⟩
  | ifElse ty thenBody elseBody =>
    rw [instr_ifElse] at h
    obtain ⟨arm, b₁, b₂, b₃, hopen, hinside, hthen, hdepth, h⟩ :=
      of_arm_lowered (shifts_openIf m ty _) h
    refine ⟨(opening_if m ty _).depth_lt hopen, fun other hother hnonempty => ?_⟩
    rcases List.mem_cons.1 hother with rfl | hother
    · exact ⟨b₁, b₂, hinside, hthen⟩
    · -- an arm that is not empty is always lowered
      obtain rfl : other = elseBody := List.mem_singleton.1 hother
      have hneeded : needsElse other arm.results = true := by simp [needsElse, hnonempty]
      rw [if_pos hneeded] at h
      obtain ⟨_, b₄, b₅, b₆, -, hinside', helse, -⟩ := of_arm_lowered (shifts_openElse arm) h
      exact ⟨b₄, b₅, by omega, helse⟩
  | _ => exact absurd rfl hbodies

/-! ### Sequences -/

lemma bodyWeight_lt_of_mem {instr : Instr} {body : List Instr} (h : body ∈ instr.bodies) :
    bodyWeight body < instrWeight instr := by
  cases instr with
  | block ty inner | loop ty inner =>
    rw [List.mem_singleton.1 h, instrWeight]
    omega
  | ifElse ty thenBody elseBody =>
    rw [instrWeight]
    rcases List.mem_cons.1 h with rfl | h
    · omega
    · rw [List.mem_singleton.1 h]
      omega
  | _ => cases h

/-- If a sequence is refused for its nesting, a construct that is reached sits too deep. -/
lemma reached_of_tooDeep {instrs : List Instr}
    (h : Descent.seq m instrs b = .error (.validation .nestedTooDeeply) b') :
    ∃ depth, Reached instrs depth ∧ maxNesting < b.depth + depth := by
  -- the induction is on the weight, since it goes into bodies as well as along the sequence
  induction hn : bodyWeight instrs using Nat.strongRecOn generalizing instrs b with
  | ind n ih =>
    cases instrs with
    | nil => cases h
    | cons instr rest =>
      have hweight : bodyWeight (instr :: rest) = instrWeight instr + bodyWeight rest := rfl
      rw [Descent.seq] at h
      rcases of_bind_run_error h with hinstr | ⟨⟨⟩, b₁, hinstr, h⟩
      · obtain ⟨hbodies, hfull | ⟨body, hbody, b₁, hdepth, hseq⟩⟩ := step_of_tooDeep hinstr
        · exact ⟨1, .here hbodies, by omega⟩
        · have hsmaller := bodyWeight_lt_of_mem hbody
          obtain ⟨depth, hreached, hlimit⟩ := ih _ (by omega) hseq rfl
          exact ⟨depth + 1, .inside hbody hreached, by omega⟩
      · cases htransfer : instr.isTransfer with
        | true =>
          rw [htransfer, if_pos rfl] at h
          cases h
        | false =>
          rw [htransfer, if_neg (by simp)] at h
          have hone := one_le_instrWeight instr
          obtain ⟨depth, hreached, hlimit⟩ := ih _ (by omega) h rfl
          rw [depth_of_instr htransfer hinstr] at hlimit
          exact ⟨depth, .later htransfer hreached, hlimit⟩

/-- If a sequence is lowered, no construct that is reached sits too deep. -/
lemma depth_le_of_reached {instrs : List Instr} {depth : Nat} (h : Reached instrs depth)
    (hrun : Descent.seq m instrs b = .ok () b') : b.depth + depth ≤ maxNesting := by
  induction h generalizing b b' with
  | here hbodies =>
    obtain ⟨⟨⟩, b₁, hinstr, -⟩ := of_bind_run_ok hrun
    exact (step_of_lowered hbodies hinstr).1
  | inside hbody hreached ih =>
    obtain ⟨⟨⟩, b₁, hinstr, -⟩ := of_bind_run_ok hrun
    have hinside := (step_of_lowered (List.ne_nil_of_mem hbody) hinstr).2
    obtain ⟨b₂, b₃, hdepth, hseq⟩ := hinside _ hbody hreached.ne_nil
    have hle := ih hseq
    omega
  | later htransfer _ ih =>
    obtain ⟨⟨⟩, b₁, hinstr, hrun⟩ := of_bind_run_ok hrun
    rw [htransfer, if_neg (by simp)] at hrun
    have hle := ih hrun
    rwa [depth_of_instr htransfer hinstr] at hle

/-! ### Bodies and functions -/

lemma reached_of_lowerBody {instrs : List Instr}
    (h : lowerBody m instrs b = .error (.validation .nestedTooDeeply) b') :
    ∃ depth, Reached instrs depth ∧ maxNesting < b.depth + depth := by
  rw [lowerBody_eq_body, Descent.body, bind_run_ok (get_run b)] at h
  split at h
  · cases h
  · exact reached_of_tooDeep h

lemma depth_le_of_lowerBody {instrs : List Instr} {depth : Nat}
    (hstart : b.current.unreachable = false) (h : lowerBody m instrs b = .ok () b')
    (hreached : Reached instrs depth) : b.depth + depth ≤ maxNesting := by
  rw [lowerBody_eq_body, Descent.body, bind_run_ok (get_run b), if_neg (by simp [hstart])] at h
  exact depth_le_of_reached hreached h

/-- A function that is refused for its nesting has a construct that sits too deep and is reached. -/
lemma reached_of_lowerFunction {position : Nat}
    (h : lowerFunction m position = .error (.validation .nestedTooDeeply)) :
    ∃ func, m.functions[position]? = some func ∧
      ∃ depth, Reached func.body depth ∧ maxNesting < depth := by
  unfold lowerFunction at h
  cases hfunc : m.functions[position]? with
  | none =>
    rw [hfunc] at h
    cases h
  | some func =>
    rw [hfunc] at h
    refine ⟨func, rfl, ?_⟩
    dsimp only at h
    cases htype : m.typeAt func.type with
    | error e =>
      rw [htype] at h
      cases h
      exact absurd rfl (finds_typeAt m func.type htype)
    | ok type =>
      have hbind (f : FuncType → Except Error Method) : (Except.ok type >>= f) = f type := rfl
      rw [htype, hbind, ← functionStart] at h
      split at h
      · cases h
      case h_2 e b₁ hbuild =>
        cases h
        rcases of_bind_run_error hbuild with hbody | ⟨⟨⟩, b₂, -, hend⟩
        · -- no frame lies around the function's own sequence
          obtain ⟨depth, hreached, hlimit⟩ := reached_of_lowerBody hbody
          have hdepth : (functionStart func type).depth = 0 := rfl
          exact ⟨depth, hreached, by omega⟩
        · exact absurd rfl (composed_endFunction.throws hend)

end

end Lowering

end WasmAot
