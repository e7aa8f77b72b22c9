/-
# The two limits on nesting

Constructs may be nested `maxNesting` deep, and this is checked twice: while the bytes of an
expression are read, by the number of constructs that are open, and while a body is lowered, by the
number of frames around the place.  The frames are counted differently, with the function itself as
one of them and the arms of a conditional as frames of their own, but the limits are the same: what
was read is never refused for its nesting when it is lowered.
-/
import WasmAot.Proofs.Binary.Depth
import WasmAot.Proofs.Lowering.Depth
import WasmAot.Proofs.Validation.Completeness

namespace WasmAot

/-! ### Constructs that are reached are constructs -/

lemma nestingOf_lt_of_mem {instr : Instr} {body : List Instr} (h : body ∈ instr.bodies) :
    nestingOf body < instr.nesting := by
  cases instr with
  | block ty inner | loop ty inner =>
    rw [List.mem_singleton.1 h, Instr.nesting]
    omega
  | ifElse ty thenBody elseBody =>
    rw [Instr.nesting]
    rcases List.mem_cons.1 h with rfl | h
    · omega
    · rw [List.mem_singleton.1 h]
      omega
  | _ => cases h

/-- No construct that is reached sits deeper than constructs are nested at all. -/
lemma Reached.le_nestingOf {body : List Instr} {depth : Nat} (h : Reached body depth) :
    depth ≤ nestingOf body := by
  induction h with
  | @here instr rest hbodies =>
    obtain ⟨body, hbody⟩ := List.exists_mem_of_ne_nil _ hbodies
    have hless := nestingOf_lt_of_mem hbody
    rw [nestingOf]
    omega
  | inside hbody _ ih =>
    have hless := nestingOf_lt_of_mem hbody
    rw [nestingOf]
    omega
  | later _ _ ih =>
    rw [nestingOf]
    omega

open Binary Lowering Validation

/-! ### Agreement -/

/-- A module that was read has no function whose constructs are nested deeper than 512, and none is
refused for its nesting when it is lowered.  A body is refused for its nesting only if a construct
that is reached sits at depth 513 or more, and if it is lowered there is none.  An expression is
refused for its nesting while it is read exactly at an opcode that opens a construct, with 512
constructs open. -/
theorem nestingLimits_agree :
    (∀ bytes m, decode bytes = .ok m → ∀ position func, m.functions[position]? = some func →
      nestingOf func.body ≤ 512 ∧
        lowerFunction m position ≠ .error (.validation .nestedTooDeeply)) ∧
    (∀ m instrs b b', lowerBody m instrs b = .error (.validation .nestedTooDeeply) b' →
      ∃ depth, Reached instrs depth ∧ 513 ≤ b.depth + depth) ∧
    (∀ m instrs b b', b.current.unreachable = false → lowerBody m instrs b = .ok () b' →
      ∀ depth, Reached instrs depth → b.depth + depth ≤ 512) ∧
    ∀ c c' offset, expr c = .error (.parsing offset .nestedTooDeeply) c' ↔
      ∃ opens place opcode, OpenAt c opens place ∧ opens.length = 512 ∧
        byte place = .ok opcode c' ∧ Opens opcode ∧ place.offset = offset := by
  refine ⟨fun bytes m hdecode position func hfunc => ?_, ?_, ?_, fun c c' offset => ?_⟩
  · have hnesting : nestingOf func.body ≤ maxNesting :=
      nestingOf_le_of_decode hdecode (List.mem_of_getElem? hfunc)
    refine ⟨hnesting, fun hdeep => ?_⟩
    obtain ⟨func', hfunc', depth, hreached, hlimit⟩ := reached_of_lowerFunction hdeep
    obtain rfl : func = func' := Option.some.inj (hfunc.symm.trans hfunc')
    have hle := hreached.le_nestingOf
    omega
  · intro m instrs b b' h
    exact reached_of_lowerBody h
  · intro m instrs b b' hstart h depth hreached
    exact depth_le_of_lowerBody hstart h hreached
  · rw [expr_tooDeep_iff]
    constructor
    · rintro ⟨opens, place, opcode, hplace, hfull, hnext, hopens, hoffset⟩
      exact ⟨opens, place, opcode, hplace, hfull, hnext, hopens, hoffset⟩
    · rintro ⟨opens, place, opcode, hplace, hfull, hnext, hopens, hoffset⟩
      exact ⟨opens, place, opcode, hplace, hfull, hnext, hopens, hoffset⟩

/-! Conditionals, each in the second arm of the one before: 512 of them are read and lowered, and
one more is refused by the reader at its opcode, and by the lowering. -/

/-- So many conditionals inside of each other's second arms. -/
def elseTower : Nat → List Instr
  | 0 => []
  | n + 1 => [.i32Const 0, .ifElse .empty [] (elseTower n)]

/-- The module of one function with such a body. -/
def towerModule (n : Nat) : Module :=
  { types := [⟨[], []⟩], functions := [⟨0, [], elseTower n⟩] }

lemma nestingOf_elseTower (n : Nat) : nestingOf (elseTower n) = n := by
  induction n with
  | zero => rfl
  | succ n ih =>
    simp only [elseTower, nestingOf, Instr.nesting, ih]
    omega

lemma encodableSeq_elseTower (n : Nat) : EncodableSeq (elseTower n) := by
  induction n with
  | zero => trivial
  | succ n ih => exact ⟨trivial, ⟨trivial, trivial, ih⟩, trivial⟩

lemma reached_elseTower (n : Nat) : Reached (elseTower (n + 1)) (n + 1) := by
  induction n with
  | zero => exact .later rfl (.here (List.cons_ne_nil _ _))
  | succ n ih => exact .later rfl (.inside (by simp [Instr.bodies]) ih)

lemma typed_elseTower (C : Context) (n : Nat) : Typed C (elseTower n) [] [] := by
  induction n generalizing C with
  | zero => exact .nil .nil
  | succ n ih =>
    refine @Typed.simple _ _ _ [] [] _ _ _ (.i32Const 0) .nil ?_
    exact @Typed.ifElse _ _ _ _ _ _ [] [] _ _ rfl .nil (.inr rfl) (.nil .nil) (ih _) (.nil .nil)

lemma exists_method_towerModule {n : Nat} (hn : n ≤ maxNesting) :
    ∃ method, lowerFunction (towerModule n) 0 = .ok method := by
  have hfunc : (towerModule n).functions[0]? = some ⟨0, [], elseTower n⟩ := rfl
  have htype : (towerModule n).types[0]? = some ⟨[], []⟩ := rfl
  have htables : ∀ table ∈ (towerModule n).tableTypes, table.elem = .funcref := by
    intro table htable
    cases htable
  have hlowers : Lowers (.ofFunction (towerModule n) ⟨0, [], elseTower n⟩ ⟨[], []⟩)
      (elseTower n) [] [] :=
    lowers_of_typed (typed_elseTower _ n) (fun _ => htables) rfl
  have hnesting : nestingOf (elseTower n) ≤ maxNesting := by
    rw [nestingOf_elseTower]
    exact hn
  exact (exists_method_of_lowers hfunc htype hlowers hnesting).1

/-- The bytes that lead into the second arms of so many conditionals. -/
def intoElse (n : Nat) : List UInt8 :=
  (List.replicate n [0x41, 0x00, 0x04, 0x40, 0x05]).flatten

lemma openAt_intoElse {n : Nat} (hn : n ≤ maxNesting) (rest : List UInt8) :
    OpenAt (Cursor.start (intoElse n ++ rest)) (List.replicate n 0x05) ⟨5 * n, rest⟩ := by
  induction n generalizing rest with
  | zero => exact .start
  | succ n ih =>
    have hbytes : intoElse (n + 1) ++ rest =
        intoElse n ++ (0x41 :: 0x00 :: 0x04 :: 0x40 :: 0x05 :: rest) := by
      simp [intoElse, List.replicate_succ']
    have hplace := ih (by omega) (0x41 :: 0x00 :: 0x04 :: 0x40 :: 0x05 :: rest)
    rw [hbytes]
    have hconst := hplace.plain rfl (by decide) (by decide) (by decide) rfl
    have hroom : (List.replicate n (0x05 : UInt8)).length < maxNesting := by
      rw [List.length_replicate]
      exact hn
    have hif := hconst.opened hroom rfl (.inr (.inr rfl)) rfl
    exact hif.second rfl

theorem nestingLimits_agree_elseTower :
    (∃ c, expr (Cursor.start (exprBytes (elseTower 512))) = .ok (elseTower 512) c) ∧
      (∃ method, lowerFunction (towerModule 512) 0 = .ok method) ∧
      expr (Cursor.start (intoElse 512 ++ [0x04])) =
        .error (.parsing 2560 .nestedTooDeeply) ⟨2561, []⟩ ∧
      ∀ method, lowerFunction (towerModule 513) 0 ≠ .ok method := by
  obtain ⟨-, -, hlowered, hread⟩ := nestingLimits_agree
  refine ⟨?_, ?_, ?_, fun method hmethod => ?_⟩
  · have hreads := reads_expr (encodableSeq_elseTower 512) (nestingOf_elseTower 512).le 0 []
    rw [List.append_nil] at hreads
    exact ⟨_, hreads⟩
  · exact exists_method_towerModule (Nat.le_refl _)
  · refine (hread _ _ _).2 ⟨_, _, 0x04, openAt_intoElse (Nat.le_refl _) [0x04], ?_, rfl, ?_, rfl⟩
    · rw [List.length_replicate]
      rfl
    · exact .inr (.inr rfl)
  · obtain ⟨func, type, b, hfunc, -, hbuild, -⟩ := lowerFunction_eq_ok_iff.1 hmethod
    cases hfunc
    obtain ⟨⟨⟩, b₁, hbody, -⟩ := Stateful.of_bind_run_ok hbuild
    rw [← lowerBody_eq_lowerSeq] at hbody
    have hle := hlowered _ _ _ _ rfl hbody 513 (reached_elseTower 512)
    omega

end WasmAot
