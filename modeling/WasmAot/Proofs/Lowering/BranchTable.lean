/-
# Branch tables

A branch table is written as a choice by number, with one arm for all the numbers that lead equally
far.  The arms come out of a loop over the targets that looks for an arm to extend at each of them.
This file says what the loop leaves: the arm for a number leads as far as its target, no number is
in two places, and the arms stand in the order in which their distances first appear among the
targets.  From this follows what is known of the lines that are written.
-/
import Mathlib.Data.List.Basic
import WasmAot.Proofs.Nesting.Plain

namespace WasmAot.Lowering

open Code Stateful

/-! ### Grouping -/

/-- How far a number leads: as far as the arm that lists it, or else as the default. -/
def chosenLevels (arms : List TableArm) (default s : Nat) : Nat :=
  match arms.find? (s ∈ ·.cases) with
  | some arm => arm.levels
  | none => default

/-- The arms are the right ones for a list of targets. -/
structure Dispatches (targets : List Nat) (default : Nat) (arms : List TableArm) : Prop where
  /-- a number leads to its target, and one beyond the list to the default -/
  chosen : ∀ s, chosenLevels arms default s = (targets[s]?).getD default
  /-- no number is in two arms, nor twice in one -/
  nodup : (arms.flatMap TableArm.cases).Nodup
  /-- there is no arm without a number -/
  used : ∀ arm ∈ arms, arm.cases ≠ []
  /-- the distance of an arm appears before those of the arms behind it -/
  ordered : arms.Pairwise fun arm later => targets.idxOf arm.levels < targets.idxOf later.levels

/-- One more target adds its number to the arms, unless it is the default. -/
lemma tableArms_concat (targets : List Nat) (levels default : Nat) :
    tableArms (targets ++ [levels]) default =
      if levels = default then tableArms targets default
      else addCase levels targets.length (tableArms targets default) := by
  rw [tableArms, List.zipIdx_append, List.foldl_append]
  simp only [List.zipIdx_singleton, List.foldl_cons, List.foldl_nil, Nat.zero_add]
  rfl

lemma perm_cases_addCase (levels case : Nat) (arms : List TableArm) :
    ((addCase levels case arms).flatMap TableArm.cases).Perm
      (case :: arms.flatMap TableArm.cases) := by
  induction arms with
  | nil => exact .refl _
  | cons arm arms ih =>
    rw [addCase]
    split
    · rw [List.flatMap_cons, List.flatMap_cons, List.append_assoc, List.singleton_append]
      exact List.perm_middle
    · rw [List.flatMap_cons, List.flatMap_cons]
      exact (ih.append_left _).trans List.perm_middle

lemma map_levels_addCase (levels case : Nat) (arms : List TableArm) :
    (addCase levels case arms).map TableArm.levels =
      if levels ∈ arms.map TableArm.levels then arms.map TableArm.levels
      else arms.map TableArm.levels ++ [levels] := by
  induction arms with
  | nil => rfl
  | cons arm arms ih =>
    rw [addCase]
    by_cases heq : arm.levels = levels
    · simp [heq]
    · have hne : levels ≠ arm.levels := fun h => heq h.symm
      rw [if_neg heq, List.map_cons, List.map_cons, ih]
      simp only [List.mem_cons, hne, false_or]
      split <;> rfl

lemma lt_length_of_mem_cases {targets : List Nat} {default s : Nat}
    (h : s ∈ (tableArms targets default).flatMap TableArm.cases) : s < targets.length := by
  obtain ⟨arm, harm, hs⟩ := List.mem_flatMap.1 h
  obtain ⟨htarget, -⟩ := mem_tableArms.1 ⟨arm, harm, rfl, hs⟩
  exact (List.getElem?_eq_some_iff.1 htarget).1

lemma nodup_cases_tableArms (targets : List Nat) (default : Nat) :
    ((tableArms targets default).flatMap TableArm.cases).Nodup := by
  induction targets using List.reverseRecOn with
  | nil => exact List.nodup_nil
  | append_singleton targets levels ih =>
    rw [tableArms_concat]
    split
    · exact ih
    · -- the number that is added is the first one that is not in use yet
      rw [(perm_cases_addCase _ _ _).nodup_iff, List.nodup_cons]
      exact ⟨fun hmem => Nat.lt_irrefl _ (lt_length_of_mem_cases hmem), ih⟩

lemma cases_addCase_ne_nil (levels case : Nat) {arms : List TableArm}
    (h : ∀ arm ∈ arms, arm.cases ≠ []) : ∀ arm ∈ addCase levels case arms, arm.cases ≠ [] := by
  induction arms with
  | nil => exact List.forall_mem_singleton.2 (List.cons_ne_nil _ _)
  | cons arm arms ih =>
    obtain ⟨hfirst, hrest⟩ := List.forall_mem_cons.1 h
    rw [addCase]
    split
    · refine List.forall_mem_cons.2 ⟨?_, hrest⟩
      exact List.append_ne_nil_of_right_ne_nil _ (List.cons_ne_nil _ _)
    · exact List.forall_mem_cons.2 ⟨hfirst, ih hrest⟩

lemma cases_tableArms_ne_nil (targets : List Nat) (default : Nat) :
    ∀ arm ∈ tableArms targets default, arm.cases ≠ [] := by
  induction targets using List.reverseRecOn with
  | nil => exact List.forall_mem_nil _
  | append_singleton targets levels ih =>
    rw [tableArms_concat]
    split
    · exact ih
    · exact cases_addCase_ne_nil levels targets.length ih

/-- A target other than the default has an arm. -/
lemma mem_levels_tableArms {targets : List Nat} {default levels : Nat} (hmem : levels ∈ targets)
    (hne : levels ≠ default) : levels ∈ (tableArms targets default).map TableArm.levels := by
  obtain ⟨s, hs⟩ := List.mem_iff_getElem?.1 hmem
  obtain ⟨arm, harm, hlevels, -⟩ := mem_tableArms.2 ⟨hs, hne⟩
  exact List.mem_map.2 ⟨arm, harm, hlevels⟩

lemma pairwise_levels_tableArms (targets : List Nat) (default : Nat) :
    ((tableArms targets default).map TableArm.levels).Pairwise
      fun levels later => targets.idxOf levels < targets.idxOf later := by
  induction targets using List.reverseRecOn with
  | nil => exact List.Pairwise.nil
  | append_singleton targets levels ih =>
    have hmem : ∀ l ∈ (tableArms targets default).map TableArm.levels, l ∈ targets := by
      intro l hl
      obtain ⟨arm, harm, rfl⟩ := List.mem_map.1 hl
      exact levels_tableArms harm
    -- the distances of the arms so far appear where they did
    have hold : ((tableArms targets default).map TableArm.levels).Pairwise
        fun l later => (targets ++ [levels]).idxOf l < (targets ++ [levels]).idxOf later := by
      refine ih.imp_of_mem fun {l later} hl hlater hless => ?_
      rwa [List.idxOf_append_of_mem (hmem l hl), List.idxOf_append_of_mem (hmem later hlater)]
    rw [tableArms_concat]
    split
    case isTrue => exact hold
    case isFalse hne =>
      rw [map_levels_addCase]
      split
      case isTrue => exact hold
      case isFalse hnew =>
        -- a distance that appears for the first time appears behind all others
        have hfirst : levels ∉ targets := fun h => hnew (mem_levels_tableArms h hne)
        refine List.pairwise_append.2 ⟨hold, List.pairwise_singleton _ _, ?_⟩
        intro l hl later hlater
        rw [List.mem_singleton.1 hlater, List.idxOf_append_of_mem (hmem l hl),
          List.idxOf_append_of_notMem hfirst]
        exact Nat.lt_of_lt_of_le (List.idxOf_lt_length_iff.2 (hmem l hl)) (Nat.le_add_right _ _)

lemma chosenLevels_tableArms (targets : List Nat) (default s : Nat) :
    chosenLevels (tableArms targets default) default s = (targets[s]?).getD default := by
  unfold chosenLevels
  cases hfind : (tableArms targets default).find? (s ∈ ·.cases) with
  | some arm =>
    have hcase : s ∈ arm.cases := by simpa using List.find?_some hfind
    obtain ⟨htarget, -⟩ := mem_tableArms.1 ⟨arm, List.mem_of_find?_eq_some hfind, rfl, hcase⟩
    rw [htarget]
    rfl
  | none =>
    cases htarget : targets[s]? with
    | none => rfl
    | some levels =>
      -- a target that no arm holds is the default
      by_cases hdefault : levels = default
      · exact hdefault.symm
      · obtain ⟨arm, harm, -, hcase⟩ := mem_tableArms.2 ⟨htarget, hdefault⟩
        exact absurd hcase (by simpa using List.find?_eq_none.1 hfind arm harm)

lemma dispatches_tableArms (targets : List Nat) (default : Nat) :
    Dispatches targets default (tableArms targets default) :=
  ⟨chosenLevels_tableArms targets default, nodup_cases_tableArms targets default,
    cases_tableArms_ne_nil targets default,
    List.Pairwise.of_map TableArm.levels (fun _ _ h => h)
      (pairwise_levels_tableArms targets default)⟩

/-! ### Operands that are taken off -/

section

variable {b b' : Builder}

lemma stacks_dropOperands (n : Nat) (frames : List Frame) :
    (dropOperands n frames).flatMap Frame.stack = (frames.flatMap Frame.stack).drop n := by
  induction frames generalizing n with
  | nil => exact List.drop_nil.symm
  | cons frame frames ih =>
    rw [dropOperands, List.flatMap_cons, List.flatMap_cons, ih, List.drop_append]

lemma operands_popped (b : Builder) (n : Nat) : (b.popped n).operands = b.operands.drop n :=
  stacks_dropOperands n b.frames

lemma operands_of_pop {n : Nat} {ops : List Operand} (hrun : pop n b = .ok ops b') :
    ∃ top, ops = top.reverse ∧ top.length = n ∧ b.operands = top ++ b'.operands := by
  obtain ⟨rfl, -⟩ := eq_popped_of_pop hrun
  rw [pop_eq] at hrun
  obtain ⟨ops', b₁, hpeek, hrun⟩ := of_bind_run_ok hrun
  simp only [peekOperands_eq, bind_run, get_run] at hpeek
  split at hpeek
  case isTrue hroom =>
    cases hpeek
    cases hrun
    refine ⟨b.operands.take n, rfl, List.length_take_of_le hroom, ?_⟩
    rw [operands_popped, List.take_append_drop]
  case isFalse => cases hpeek

/-- What is taken off the stack are its top operands, those of the enclosing constructs included. -/
lemma operands_of_popAtoms {types : List ValType} {atoms : List Atom}
    (hrun : popAtoms types b = .ok atoms b') :
    ∃ top, atoms = top.reverse.map Operand.atom ∧ top.length = types.length ∧
      b.operands = top ++ b'.operands := by
  obtain ⟨ops, b₁, hops, hrun⟩ := of_bind_run_ok hrun
  cases hrun
  obtain ⟨ops', b₂, hpeek, hpop⟩ := of_bind_run_ok hops
  obtain ⟨rfl, -⟩ := mem_operands_of_peekAtoms hpeek
  obtain ⟨top, rfl, hlength, htop⟩ := operands_of_pop hpop
  exact ⟨top, rfl, hlength, htop⟩

lemma operands_of_popAtom {ty : ValType} {atom : Atom} (hrun : popAtom ty b = .ok atom b') :
    ∃ op, atom = op.atom ∧ b.operands = op :: b'.operands := by
  obtain ⟨atoms, b₁, hatoms, hrun⟩ := of_bind_run_ok hrun
  obtain ⟨top, rfl, hlength, htop⟩ := operands_of_popAtoms hatoms
  obtain ⟨op, rfl⟩ := List.length_eq_one_iff.1 hlength
  cases hrun
  exact ⟨op, rfl, htop⟩

@[simp] lemma operands_wrote (vars : Nat) (lines : List Line) :
    (b.wrote vars lines).operands = b.operands := rfl

@[simp] lemma operands_unreached : b.unreached.operands = b.operands := rfl

@[simp] lemma out_unreached : b.unreached.out = b.out := rfl

lemma markUnreachable_run : markUnreachable b = .ok () b.unreached := rfl

lemma eq_of_branchTarget {levels : Nat} {target : Target}
    (hrun : branchTarget levels b = .ok target b') : b' = b := by
  obtain ⟨frame, b₁, hframe, hrun⟩ := of_bind_run_ok hrun
  cases hrun
  rw [targetFrame, bind_run_ok (get_run b)] at hframe
  cases hget : b.frames[levels]? with
  | some frame' =>
    rw [hget] at hframe
    cases hframe
    rfl
  | none =>
    rw [hget] at hframe
    cases hframe

lemma eq_of_checkTargets {types : List ValType} {targets : List Nat}
    (hrun : checkTargets types targets b = .ok () b') : b' = b := by
  induction targets with
  | nil =>
    cases hrun
    rfl
  | cons levels targets ih =>
    obtain ⟨target, b₁, htarget, hrun⟩ := of_bind_run_ok hrun
    cases eq_of_branchTarget htarget
    split at hrun
    · exact ih hrun
    · cases hrun

/-! ### The lines of a branch table -/

lemma Emits.exits {lines : List Line} (h : Emits b b' lines) : b'.exits = b.exits := by
  have houtlines := congrArg (List.map Frame.exit) h.outlines
  rw [Builder.outlines, Builder.outlines, List.map_map, List.map_map] at houtlines
  exact houtlines

/-- The lines hand the values over to the construct so many levels outward and go on there. -/
def LeadsOut (exits : List Exit) (levels : Nat) (values : List Atom) (lines : List Line) : Prop :=
  ∃ exit, exits[levels]? = some exit ∧ values.length = exit.target.types.length ∧
    lines = exitLines exit values

/-- A choice by number, where `way` are the lines that lead so many levels outward. -/
def choiceLines (selector : Atom) (arms : List TableArm) (default : Nat) (way : Nat → List Line) :
    List Line :=
  [Line.openMatch selector] ++
    (arms.flatMap fun arm => [Line.openCases arm.cases] ++ way arm.levels ++ [Line.close]) ++
    ([Line.openOtherwise] ++ way default ++ [Line.close]) ++ [Line.close]

lemma leadsOut_of_branchOut {levels : Nat} {values : List Atom}
    (hrun : branchOut levels values b = .ok () b') :
    ∃ lines, LeadsOut b.exits levels values lines ∧ b' = b.wrote 0 lines := by
  obtain ⟨exit, hexit, rfl⟩ := exit_of_branchOut hrun
  refine ⟨exitLines exit values, ⟨exit, hexit, ?_, rfl⟩, rfl⟩
  obtain ⟨frame, rfl, htarget⟩ := targetFrame_run hexit
  rw [branchOut, bind_run_ok htarget] at hrun
  split at hrun
  case isTrue hlength => exact hlength
  case isFalse => cases hrun

/-- The lines that lead outward, for each distance. -/
def wayOut (exits : List Exit) (values : List Atom) (levels : Nat) : List Line :=
  match exits[levels]? with
  | some exit => exitLines exit values
  | none => []

lemma LeadsOut.eq_wayOut {exits : List Exit} {levels : Nat} {values : List Atom} {lines : List Line}
    (h : LeadsOut exits levels values lines) : lines = wayOut exits values levels := by
  obtain ⟨exit, hexit, -, rfl⟩ := h
  rw [wayOut, hexit]

/-- Every arm that is written leads out as far as it should, with the same values. -/
lemma leadsOut_of_lowerArms {values : List Atom} {arms : List TableArm}
    (hrun : lowerArms values arms b = .ok () b') :
    (∀ arm ∈ arms, LeadsOut b.exits arm.levels values (wayOut b.exits values arm.levels)) ∧
      b' = b.wrote 0 (arms.flatMap fun arm =>
        [Line.openCases arm.cases] ++ wayOut b.exits values arm.levels ++ [Line.close]) := by
  induction arms generalizing b with
  | nil =>
    cases hrun
    exact ⟨List.forall_mem_nil _, (Builder.wrote_zero_nil _).symm⟩
  | cons arm arms ih =>
    rw [lowerArms, bind_run_ok (emit_run _)] at hrun
    obtain ⟨⟨⟩, b₁, hout, hrun⟩ := of_bind_run_ok hrun
    obtain ⟨lines, hleads, rfl⟩ := leadsOut_of_branchOut hout
    rw [exits_wrote] at hleads
    cases hleads.eq_wayOut
    rw [bind_run_ok (emit_run _)] at hrun
    obtain ⟨hrest, rfl⟩ := ih hrun
    simp only [exits_wrote, Builder.wrote_wrote] at hrest ⊢
    exact ⟨List.forall_mem_cons.2 ⟨hleads, hrest⟩, rfl⟩

end

/-- What is written for a branch table, in every state in which it can be.  The top operand is the
number, and the operands below it are handed over, the same ones in every arm.  The arm for a number
leads out as far as its target, or as the default if the number is beyond the list; each number
stands in at most one arm, and the arms stand in the order in which their distances appear. -/
theorem lowerBrTable_dispatches {targets : List Nat} {default : Nat} {b b' : Builder}
    (hrun : lowerBrTable targets default b = .ok () b') :
    ∃ (selector : Operand) (top : List Operand) (arms : List TableArm) (way : Nat → List Line),
      b.operands = selector :: (top ++ b'.operands) ∧
      b'.out.toList = b.out.toList ++ choiceLines selector.atom arms default way ∧
      (∀ levels ∈ default :: arms.map TableArm.levels,
        LeadsOut b.exits levels (top.reverse.map Operand.atom) (way levels)) ∧
      Dispatches targets default arms := by
  obtain ⟨selector, b₁, hselector, hrun⟩ := of_bind_run_ok hrun
  obtain ⟨target, b₂, htarget, hrun⟩ := of_bind_run_ok hrun
  cases eq_of_branchTarget htarget
  obtain ⟨⟨⟩, b₃, hcheck, hrun⟩ := of_bind_run_ok hrun
  cases eq_of_checkTargets hcheck
  obtain ⟨values, b₄, hvalues, hrun⟩ := of_bind_run_ok hrun
  obtain ⟨op, rfl, hop⟩ := operands_of_popAtom hselector
  obtain ⟨top, rfl, -, htop⟩ := operands_of_popAtoms hvalues
  -- so far nothing was written, and the frames differ in their operands only
  have hbefore := (silent_popAtom _ hselector).trans (silent_popAtoms _ hvalues)
  rw [bind_run_ok (emit_run _)] at hrun
  obtain ⟨⟨⟩, b₅, harms, hrun⟩ := of_bind_run_ok hrun
  obtain ⟨hways, rfl⟩ := leadsOut_of_lowerArms harms
  rw [bind_run_ok (emit_run _)] at hrun
  obtain ⟨⟨⟩, b₆, hout, hrun⟩ := of_bind_run_ok hrun
  obtain ⟨lines, hdefault, rfl⟩ := leadsOut_of_branchOut hout
  simp only [exits_wrote, hbefore.exits] at hways hdefault hrun
  cases hdefault.eq_wayOut
  rw [bind_run_ok (emit_run _), bind_run_ok (emit_run _)] at hrun
  cases markUnreachable_run.symm.trans hrun
  refine ⟨op, top, tableArms targets default, wayOut b.exits (top.reverse.map Operand.atom), ?_, ?_,
    List.forall_mem_cons.2 ⟨hdefault, List.forall_mem_map.2 hways⟩, dispatches_tableArms _ _⟩
  · rw [hop, htop, operands_unreached]
    simp only [operands_wrote]
  · simp only [out_unreached, Builder.wrote_wrote, Builder.wrote_out, Array.toList_append,
      hbefore.out, choiceLines, List.append_assoc, List.nil_append]

/-- A loop inside of a block, with a value on the stack and a number read from a local on top. -/
def loopInBlock : Builder where
  locals := [.i32]
  current := ⟨.loop, .numbered 1, [localOperand 0 .i32, ⟨.bound (.temp 3), .i64⟩],
    ⟨[.temp 2], [.i64]⟩, ⟨[.temp 1], [.i64]⟩, false⟩
  enclosing := [⟨.block, .numbered 0, [], ⟨[.temp 0], [.i64]⟩, ⟨[.temp 0], [.i64]⟩, false⟩,
    ⟨.function, .body, [], ⟨[], [.i64]⟩, ⟨[], [.i64]⟩, false⟩]
  nextVar := 4
  nextLabel := 2
  out := #[]

/-- A table in which two distances come up twice, and one target is the default. -/
def mixedLines : List Line :=
  [.openMatch (.name (.slot 0)),
    .openCases [0, 3], .assign [.temp 0] [.name (.temp 3)], .breakTo (.numbered 0), .close,
    .openCases [1, 4], .assign [.temp 2] [.name (.temp 3)], .continueTo (.numbered 1), .close,
    .openOtherwise, .returnOk [.name (.temp 3)], .close, .close]

/-- The value is handed over to the variable of the block, to that of the loop, or out of the
function. -/
theorem lowerBrTable_dispatches_mixed :
    lowerBrTable [1, 0, 2, 1, 0] 2 loopInBlock =
        .ok () ((loopInBlock.withStack []).wrote 0 mixedLines).unreached ∧
      ∃ arms way, mixedLines = choiceLines (.name (.slot 0)) arms 2 way ∧
        Dispatches [1, 0, 2, 1, 0] 2 arms ∧
        ∀ levels ∈ 2 :: arms.map TableArm.levels,
          LeadsOut loopInBlock.exits levels [.name (.temp 3)] (way levels) := by
  have hrun : lowerBrTable [1, 0, 2, 1, 0] 2 loopInBlock =
      .ok () ((loopInBlock.withStack []).wrote 0 mixedLines).unreached := rfl
  obtain ⟨selector, top, arms, way, hoperands, hout, hways, hdispatches⟩ :=
    lowerBrTable_dispatches hrun
  have hleft : ((loopInBlock.withStack []).wrote 0 mixedLines).unreached.operands = [] := rfl
  have hvisible : loopInBlock.operands = [localOperand 0 .i32, ⟨.bound (.temp 3), .i64⟩] := rfl
  rw [hvisible, hleft, List.append_nil] at hoperands
  cases hoperands
  exact ⟨hrun, arms, way, hout, hdispatches, hways⟩

end WasmAot.Lowering
