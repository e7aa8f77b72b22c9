/-
# Lowered bodies have the shape

The frames of a builder are the constructs around the current place.  By induction on the
instructions, what is written for a body is of the shape that its constructs and branches call for.
-/
import WasmAot.Proofs.Nesting.Plain

namespace WasmAot.Lowering

open Code Stateful

/-! ### Frames and constructs -/

/-- The frame of a construct of this kind. -/
def ConstructKind.frameKind : ConstructKind → FrameKind
  | block => .block
  | loop => .loop
  | conditional => .ifArm

/-- The frames of the builder are those of the constructs, with that of the function around them.
Behind the construct that is being lowered control goes on. -/
structure Around (outer : List Enclosing) (b : Builder) : Prop where
  places : b.outlines.map (fun frame => (frame.kind, frame.label)) =
    outer.map (fun e => (e.kind.frameKind, e.label)) ++ [(.function, .body)]
  reached : ∀ frame ∈ b.outlines.tail, frame.unreachable = false

/-- The second builder has these lines more than the first one and is inside of the constructs; the
flag says whether the place is reached. -/
structure Stands (outer : List Enclosing) (b b' : Builder) (lines : List Line) (reached : Bool) :
    Prop where
  out : b'.out.toList = b.out.toList ++ lines
  around : Around outer b'
  unreachable : b'.current.unreachable = !reached

section

variable {outer : List Enclosing} {e : Enclosing} {b b₁ b' : Builder} {lines lines' : List Line}
  {frame : Frame}

lemma Emits.around (hemits : Emits b b' lines) (h : Around outer b) : Around outer b' := by
  refine ⟨?_, ?_⟩
  · rw [hemits.outlines]
    exact h.places
  · rw [hemits.outlines]
    exact h.reached

lemma Emits.stands (hemits : Emits b b' lines) (h : Around outer b)
    (hreached : b.current.unreachable = false) : Stands outer b b' lines true :=
  ⟨hemits.out, hemits.around h, hemits.unreachable.trans hreached⟩

/-- Control does not go on behind the lines. -/
lemma Emits.stands_unreached (hemits : Emits b b' lines) (h : Around outer b) :
    Stands outer b b'.unreached lines false :=
  ⟨hemits.out, ⟨(hemits.around h).places, (hemits.around h).reached⟩, rfl⟩

lemma Stands.trans {outer' : List Enclosing} {reached reached' : Bool}
    (h : Stands outer b b₁ lines reached) (h' : Stands outer' b₁ b' lines' reached') :
    Stands outer' b b' (lines ++ lines') reached' :=
  ⟨by rw [h'.out, h.out, List.append_assoc], h'.around, h'.unreachable⟩

/-- To enter a construct. -/
lemma Around.inside (h : Around outer b) (hreached : b.current.unreachable = false)
    (hkind : frame.kind = e.kind.frameKind) (hlabel : frame.label = e.label) :
    Around (e :: outer) (b.inside frame) := by
  refine ⟨?_, fun f hf => ?_⟩
  · have hplaces := h.places
    simp only [Builder.outlines, Builder.frames, Builder.inside, List.map_cons, Frame.outline,
      List.cons_append, hkind, hlabel, List.cons.injEq, true_and] at hplaces ⊢
    exact hplaces
  · rcases List.mem_cons.1 hf with rfl | hf
    · exact hreached
    · exact h.reached f hf

lemma Around.current (h : Around (e :: outer) b) :
    b.current.kind = e.kind.frameKind ∧ b.current.label = e.label := by
  have hplaces := h.places
  simp only [Builder.outlines, Builder.frames, List.map_cons, List.cons_append, List.cons.injEq,
    Prod.mk.injEq] at hplaces
  exact hplaces.1

/-- To leave a construct. -/
lemma Around.leave (h : Around (e :: outer) b) (hrun : closeFrame b = .ok () b') :
    Stands outer b b' [] true ∧ b'.nextLabel = b.nextLabel := by
  have hplaces := h.places
  cases henclosing : b.enclosing with
  | nil =>
    have hlength := congrArg List.length hplaces
    simp [Builder.outlines, Builder.frames, henclosing] at hlength
  | cons frame frames =>
    cases (closeFrame_run henclosing).symm.trans hrun
    simp only [Builder.outlines, Builder.frames, henclosing, List.map_cons, List.cons_append,
      List.cons.injEq] at hplaces
    have hreached := h.reached
    simp only [Builder.outlines, Builder.frames, henclosing, List.map_cons, List.tail_cons,
      List.forall_mem_cons] at hreached
    refine ⟨⟨(List.append_nil _).symm, ⟨?_, hreached.2⟩, hreached.1⟩, rfl⟩
    simp only [Builder.outlines, Builder.frames, Builder.withFrames, List.map_cons]
    exact hplaces.2

/-! ### Branches -/

lemma BranchLines.after {levels : Nat} (h : BranchLines outer levels lines)
    (hlines : ∀ line ∈ lines', line.Straight) : BranchLines outer levels (lines' ++ lines) := by
  obtain ⟨moves, jump, hmoves, hjump, rfl⟩ := h
  exact ⟨lines' ++ moves, jump, List.forall_mem_append.2 ⟨hlines, hmoves⟩, hjump,
    (List.append_assoc ..).symm⟩

lemma assignLines_straight (vars : List Name) (values : List Atom) :
    ∀ line ∈ assignLines vars values, line.Straight := by
  unfold assignLines
  split
  · exact List.forall_mem_nil _
  · exact List.forall_mem_singleton.2 trivial

/-- What is written on the way out to a frame is the branch to its construct. -/
lemma Around.branchLines (h : Around outer b) {levels : Nat} {exit : Exit}
    (hexit : b.exits[levels]? = some exit) (values : List Atom) :
    BranchLines outer levels (exitLines exit values) := by
  obtain ⟨kind, label, target⟩ := exit
  -- the frames are those of the constructs around, with the function's own behind them
  have hplace : (outer.map (fun e => (e.kind.frameKind, e.label)) ++
      [(FrameKind.function, Label.body)])[levels]? = some (kind, label) := by
    rw [← h.places, Builder.outlines, List.map_map, List.getElem?_map]
    rw [Builder.exits, List.getElem?_map, Option.map_eq_some_iff] at hexit
    obtain ⟨frame, hframe, hexit⟩ := hexit
    cases hexit
    rw [hframe]
    rfl
  have hassign := assignLines_straight target.vars values
  rcases Nat.lt_or_ge levels outer.length with hlt | hge
  · rw [List.getElem?_append_left (by simpa using hlt), List.getElem?_map,
      Option.map_eq_some_iff] at hplace
    obtain ⟨⟨kind', label'⟩, he, hplace⟩ := hplace
    cases hplace
    cases kind' with
    | block => exact ⟨_, .breakTo label', hassign, .inl he, rfl⟩
    | loop => exact ⟨_, .continueTo label', hassign, he, rfl⟩
    | conditional => exact ⟨_, .breakTo label', hassign, .inr he, rfl⟩
  -- a branch past all constructs returns
  · rw [List.getElem?_append_right (by simpa using hge), List.getElem?_singleton] at hplace
    split at hplace
    case isTrue hzero =>
      cases hplace
      rw [List.length_map] at hzero
      exact ⟨[], .returnOk values, List.forall_mem_nil _, by
        change levels = outer.length
        omega, rfl⟩
    case isFalse => cases hplace

lemma branchOut_lines (h : Around outer b) {levels : Nat} {values : List Atom}
    (hrun : branchOut levels values b = .ok () b') :
    ∃ lines, BranchLines outer levels lines ∧ Emits b b' lines := by
  obtain ⟨exit, hexit, rfl⟩ := exit_of_branchOut hrun
  exact ⟨_, h.branchLines hexit values, .wrote b 0 _⟩

/-- The arms of a branch table, each with the numbers that it is for. -/
lemma lowerArms_lines (h : Around outer b) {values : List Atom} {arms : List TableArm}
    (hrun : lowerArms values arms b = .ok () b') :
    ∃ written : List (List Nat × List Line),
      List.Forall₂ (fun arm w => w.1 = arm.cases ∧ BranchLines outer arm.levels w.2) arms written ∧
        Emits b b' (written.flatMap fun w => [Line.openCases w.1] ++ w.2 ++ [Line.close]) := by
  induction arms generalizing b with
  | nil =>
    cases hrun
    exact ⟨[], .nil, .refl _⟩
  | cons arm arms ih =>
    rw [lowerArms, bind_run_ok (emit_run _)] at hrun
    obtain ⟨⟨⟩, b₁, hout, hrun⟩ := of_bind_run_ok hrun
    have hopen := Emits.wrote b 0 [.openCases arm.cases]
    obtain ⟨branch, hbranch, hemits⟩ := branchOut_lines (hopen.around h) hout
    rw [bind_run_ok (emit_run _)] at hrun
    have harm := (hopen.trans hemits).trans (.wrote b₁ 0 [.close])
    obtain ⟨written, hwritten, hrest⟩ := ih (harm.around h) hrun
    exact ⟨(arm.cases, branch) :: written, .cons ⟨rfl, hbranch⟩ hwritten, harm.trans hrest⟩

/-- The arm that is written for a number is the one that was made for it. -/
lemma chosenLines_written {arms : List TableArm} {written : List (List Nat × List Line)}
    (h : List.Forall₂ (fun arm w => w.1 = arm.cases ∧ BranchLines outer arm.levels w.2)
      arms written) (otherwise : List Line) (s : Nat) :
    (∃ arm ∈ arms, s ∈ arm.cases ∧ BranchLines outer arm.levels (chosenLines written otherwise s)) ∨
      (∀ arm ∈ arms, s ∉ arm.cases) ∧ chosenLines written otherwise s = otherwise := by
  induction h with
  | nil => exact .inr ⟨nofun, rfl⟩
  | @cons arm w arms written hfirst _ ih =>
    obtain ⟨hcases, hbranch⟩ := hfirst
    by_cases hs : s ∈ arm.cases
    · refine .inl ⟨arm, List.mem_cons_self, hs, ?_⟩
      rw [chosenLines, List.find?_cons_of_pos (by simpa [hcases] using hs)]
      exact hbranch
    · have hskip : chosenLines (w :: written) otherwise s = chosenLines written otherwise s := by
        rw [chosenLines, List.find?_cons_of_neg (by simpa [hcases] using hs)]
        rfl
      rw [hskip]
      rcases ih with ⟨arm', harm', hs', hbranch'⟩ | ⟨hnone, hotherwise⟩
      · exact .inl ⟨arm', List.mem_cons_of_mem _ harm', hs', hbranch'⟩
      · exact .inr ⟨List.forall_mem_cons.2 ⟨hs, hnone⟩, hotherwise⟩

lemma exists_arm_of_written {arms : List TableArm} {written : List (List Nat × List Line)}
    (h : List.Forall₂ (fun arm w => w.1 = arm.cases ∧ BranchLines outer arm.levels w.2)
      arms written) :
    ∀ w ∈ written, ∃ arm ∈ arms, BranchLines outer arm.levels w.2 := by
  induction h with
  | nil => exact List.forall_mem_nil _
  | @cons arm w arms written hfirst _ ih =>
    refine List.forall_mem_cons.2 ⟨⟨arm, List.mem_cons_self, hfirst.2⟩, fun w' hw' => ?_⟩
    obtain ⟨arm', harm', hbranch⟩ := ih w' hw'
    exact ⟨arm', List.mem_cons_of_mem _ harm', hbranch⟩

lemma branchTableLines_written {targets : List Nat} {default : Nat}
    {written : List (List Nat × List Line)} {otherwise : List Line} (selector : Atom)
    (h : List.Forall₂ (fun arm w => w.1 = arm.cases ∧ BranchLines outer arm.levels w.2)
      (tableArms targets default) written)
    (hdefault : BranchLines outer default otherwise) :
    BranchTableLines outer targets default ([Line.openMatch selector] ++
      (written.flatMap (fun w => [Line.openCases w.1] ++ w.2 ++ [Line.close]) ++
        ([Line.openOtherwise] ++ otherwise ++ [Line.close])) ++ [Line.close]) := by
  refine ⟨selector, written, otherwise, rfl, hdefault, fun w hw => ?_, fun s levels hs => ?_,
    fun s hs => ?_⟩
  · obtain ⟨arm, harm, hbranch⟩ := exists_arm_of_written h w hw
    exact ⟨arm.levels, levels_tableArms harm, hbranch⟩
  -- a target without an arm of its own is the default
  · rcases chosenLines_written h otherwise s with ⟨arm, harm, hcase, hbranch⟩ | ⟨hnone, hchosen⟩
    · obtain ⟨htarget, -⟩ := mem_tableArms.1 ⟨arm, harm, rfl, hcase⟩
      cases hs.symm.trans htarget
      exact hbranch
    · rw [hchosen]
      by_cases hne : levels = default
      · rwa [hne]
      · obtain ⟨arm, harm, -, hcase⟩ := mem_tableArms.2 ⟨hs, hne⟩
        exact absurd hcase (hnone arm harm)
  -- no arm was made for a number beyond the list
  · rcases chosenLines_written h otherwise s with ⟨arm, harm, hcase, -⟩ | ⟨-, hchosen⟩
    · obtain ⟨htarget, -⟩ := mem_tableArms.1 ⟨arm, harm, rfl, hcase⟩
      rw [List.getElem?_eq_none hs] at htarget
      cases htarget
    · exact hchosen

lemma lowerBr_lines (h : Around outer b) {levels : Nat} (hrun : lowerBr levels b = .ok () b') :
    ∃ lines, BranchLines outer levels lines ∧ b'.nextLabel = b.nextLabel ∧
      Stands outer b b' lines false := by
  obtain ⟨target, b₁, htarget, hrun⟩ := of_bind_run_ok hrun
  obtain ⟨values, b₂, hpop, hrun⟩ := of_bind_run_ok hrun
  obtain ⟨⟨⟩, b₃, hout, hrun⟩ := of_bind_run_ok hrun
  have hbefore := (silent_branchTarget levels htarget).trans (silent_popAtoms _ hpop)
  obtain ⟨lines, hlines, hemits⟩ := branchOut_lines (hbefore.around h) hout
  cases hrun
  have hall := hbefore.trans hemits
  exact ⟨lines, hlines, hall.nextLabel, hall.stands_unreached h⟩

lemma lowerBrIf_lines (h : Around outer b) {levels : Nat} (hrun : lowerBrIf levels b = .ok () b') :
    ∃ lines, SimpleLines outer lines (.brIf levels) ∧ Emits b b' lines := by
  obtain ⟨cond, b₁, hcond, hrun⟩ := of_bind_run_ok hrun
  obtain ⟨target, b₂, htarget, hrun⟩ := of_bind_run_ok hrun
  obtain ⟨ops, b₃, hpeek, hrun⟩ := of_bind_run_ok hrun
  rw [bind_run_ok (emit_run _)] at hrun
  obtain ⟨⟨⟩, b₄, hout, hrun⟩ := of_bind_run_ok hrun
  have hbefore := ((silent_popAtom _ hcond).trans (silent_branchTarget levels htarget)).trans
    ((silent_peekAtoms _ hpeek).trans (.wrote b₃ 0 [.openIf cond]))
  obtain ⟨branch, hbranch, hemits⟩ := branchOut_lines (hbefore.around h) hout
  cases (emit_run _).symm.trans hrun
  exact ⟨[Line.openIf cond] ++ branch ++ [Line.close], ⟨cond, branch, hbranch, rfl⟩,
    (hbefore.trans hemits).trans (.wrote b₄ 0 [.close])⟩

lemma lowerBrTable_lines (h : Around outer b) {targets : List Nat} {default : Nat}
    (hrun : lowerBrTable targets default b = .ok () b') :
    ∃ lines, BranchTableLines outer targets default lines ∧ b'.nextLabel = b.nextLabel ∧
      Stands outer b b' lines false := by
  obtain ⟨selector, b₁, hselector, hrun⟩ := of_bind_run_ok hrun
  obtain ⟨target, b₂, htarget, hrun⟩ := of_bind_run_ok hrun
  obtain ⟨⟨⟩, b₃, hcheck, hrun⟩ := of_bind_run_ok hrun
  obtain ⟨values, b₄, hpop, hrun⟩ := of_bind_run_ok hrun
  rw [bind_run_ok (emit_run _)] at hrun
  obtain ⟨⟨⟩, b₅, harms, hrun⟩ := of_bind_run_ok hrun
  rw [bind_run_ok (emit_run _)] at hrun
  obtain ⟨⟨⟩, b₆, hout, hrun⟩ := of_bind_run_ok hrun
  -- in front of the arms only the opening line is written
  have hbefore := ((silent_popAtom _ hselector).trans (silent_branchTarget _ htarget)).trans
    (((silent_checkTargets _ _ hcheck).trans (silent_popAtoms _ hpop)).trans
      (.wrote b₄ 0 [.openMatch selector]))
  obtain ⟨written, hwritten, hemits⟩ := lowerArms_lines (hbefore.around h) harms
  have hinside := (hbefore.trans hemits).trans (.wrote b₅ 0 [.openOtherwise])
  obtain ⟨otherwise, hotherwise, hdefault⟩ := branchOut_lines (hinside.around h) hout
  rw [bind_run_ok (emit_run _), bind_run_ok (emit_run _)] at hrun
  cases hrun
  have hall := ((hinside.trans hdefault).trans (.wrote b₆ 0 [.close])).trans (.wrote _ 0 [.close])
  refine ⟨_, branchTableLines_written selector hwritten hotherwise, hall.nextLabel, ?_⟩
  have hstands := hall.stands_unreached h
  simp only [List.nil_append, List.append_assoc] at hstands ⊢
  exact hstands

lemma lowerTableCopy_lines {m : Module} {dst src : Nat}
    (hrun : lowerTableCopy m dst src b = .ok () b') :
    ∃ lines, SimpleLines outer lines (.tableCopy dst src) ∧ Emits b b' lines := by
  obtain ⟨⟨⟩, b₁, hdst, hrun⟩ := of_bind_run_ok hrun
  obtain ⟨⟨⟩, b₂, hsrc, hrun⟩ := of_bind_run_ok hrun
  obtain ⟨⟨x, y, z⟩, b₃, hpop, hrun⟩ := of_bind_run_ok hrun
  have hbefore :=
    ((silent_require _ hdst).trans (silent_require _ hsrc)).trans (silent_popThree hpop)
  dsimp only at hrun
  split at hrun
  · obtain ⟨lines, hlines, hemits⟩ := plain_perform _ hrun
    exact ⟨lines, .inl hlines, hbefore.trans hemits⟩
  · simp only [bind_run_ok (emit_run _), emit_run, Builder.wrote_wrote] at hrun
    cases hrun
    refine ⟨_, .inr ⟨[_], [_], ?_, rfl⟩, hbefore.trans (.wrote b₃ _ _)⟩
    exact List.forall_mem_append.2
      ⟨List.forall_mem_singleton.2 trivial, List.forall_mem_singleton.2 trivial⟩

/-- The instruction owns a sequence of instructions. -/
def isConstruct : Instr → Bool
  | .block .. | .loop .. | .ifElse .. => true
  | _ => false

lemma simpleLines_of_isPlain {instr : Instr} (h : isPlain instr = true)
    (hlines : ∀ line ∈ lines, line.Straight) : SimpleLines outer lines instr := by
  cases instr with
  | unreachable | block | loop | ifElse | br | brIf | brTable | ret | tableCopy => cases h
  | _ => exact hlines

/-- What is written for an instruction that owns no others. -/
lemma lowerSimple_lines {m : Module} {instr : Instr} (hsimple : isConstruct instr = false)
    (h : Around outer b) (hreached : b.current.unreachable = false)
    (hrun : lowerSimple m instr b = .ok () b') :
    ∃ lines, SimpleLines outer lines instr ∧ b'.nextLabel = b.nextLabel ∧
      Stands outer b b' lines (!transfers instr) := by
  -- the instructions behind which control goes on
  have goesOn {lines : List Line} (hcut : transfers instr = false)
      (hlines : SimpleLines outer lines instr) (hemits : Emits b b' lines) :
      ∃ lines, SimpleLines outer lines instr ∧ b'.nextLabel = b.nextLabel ∧
        Stands outer b b' lines (!transfers instr) := by
    rw [hcut]
    exact ⟨lines, hlines, hemits.nextLabel, hemits.stands h hreached⟩
  cases hplain : isPlain instr with
  | true =>
    obtain ⟨lines, hlines, hemits⟩ := plain_lowerSimple m hplain hrun
    have hcut : transfers instr = false := by
      cases instr with
      | unreachable | br | brTable | ret => cases hplain
      | _ => rfl
    exact goesOn hcut (simpleLines_of_isPlain hplain hlines) hemits
  | false =>
    cases instr with
    | block | loop | ifElse => cases hsimple
    | unreachable =>
      rw [lowerSimple, lowerUnreachable, bind_run_ok (emit_run _)] at hrun
      cases hrun
      have hemits := Emits.wrote b 0 [.returnTrap]
      exact ⟨_, rfl, rfl, hemits.stands_unreached h⟩
    | br levels => exact lowerBr_lines h hrun
    | brIf levels =>
      obtain ⟨lines, hlines, hemits⟩ := lowerBrIf_lines h hrun
      exact goesOn rfl hlines hemits
    | brTable targets default => exact lowerBrTable_lines h hrun
    | ret =>
      -- a return is a branch past all constructs
      have hdepth : b.depth = outer.length := by
        have hlength := congrArg List.length h.places
        simpa [Builder.outlines, Builder.frames, Builder.depth] using hlength
      rw [lowerSimple, lowerReturn, bind_run_ok (get_run b), hdepth] at hrun
      exact lowerBr_lines h hrun
    | tableCopy dst src =>
      obtain ⟨lines, hlines, hemits⟩ := lowerTableCopy_lines hrun
      exact goesOn rfl hlines hemits
    | _ => cases hplain

/-! ### Constructs -/

/-- What is written when a construct is opened. -/
lemma Emits.enter {openers : List Line} {c : Builder} (hemits : Emits b c lines)
    (h : Around outer b) (hreached : b.current.unreachable = false) (hkind : frame.kind = e.kind.frameKind)
    (hlabel : frame.label = e.label) (hflag : frame.unreachable = false) :
    Stands (e :: outer) b ((c.labelled.wrote 0 openers).inside frame) (lines ++ openers) true := by
  have hplace : Around outer (c.labelled.wrote 0 openers) :=
    ⟨(hemits.around h).places, (hemits.around h).reached⟩
  have hopen : (c.labelled.wrote 0 openers).current.unreachable = false :=
    hemits.unreachable.trans hreached
  refine ⟨?_, hplace.inside hopen hkind hlabel, hflag⟩
  rw [← List.append_assoc, ← hemits.out]
  simp [Builder.inside, Builder.labelled]

/-- What is written before a construct is opened. -/
lemma prepare_lines {types results : List ValType} {params : List Operand} {vars : List Name}
    {c₁ c₂ c₃ : Builder} (hsettle : settleLocals b = .ok () c₁)
    (hpop : popOperandsOf types c₁ = .ok params c₂)
    (hdeclare : declareAll results c₂ = .ok vars c₃) :
    ∃ lines, (∀ line ∈ lines, line.Straight) ∧ Emits b c₃ lines := by
  obtain ⟨settled, hsettled, hemits⟩ := plain_settle _ hsettle
  obtain ⟨declared, hdeclared, hemits'⟩ := plain_declareAll results hdeclare
  exact ⟨settled ++ [] ++ declared, by
    rw [List.append_nil]
    exact List.forall_mem_append.2 ⟨hsettled, hdeclared⟩,
    (hemits.trans (silent_popOperandsOf types hpop)).trans hemits'⟩

section Opening

variable {m : Module} {ty : BlockType} {results : Target} (h : Around outer b)
  (hreached : b.current.unreachable = false)

include h hreached

lemma openBlock_lines (hrun : openBlock m ty b = .ok results b') :
    ∃ before, (∀ line ∈ before, line.Straight) ∧ b'.nextLabel = b.nextLabel + 1 ∧
      Stands (⟨.block, .numbered b.nextLabel⟩ :: outer) b b'
        (before ++ [Line.openBlock (.numbered b.nextLabel)]) true := by
  obtain ⟨⟨⟩, c₁, hlimit, hrun⟩ := of_bind_run_ok hrun
  cases eq_of_limitNesting hlimit
  obtain ⟨sig, c₂, hsig, hrun⟩ := of_bind_run_ok hrun
  cases eq_of_require hsig
  obtain ⟨⟨⟩, c₃, hsettle, hrun⟩ := of_bind_run_ok hrun
  obtain ⟨params, c₄, hpop, hrun⟩ := of_bind_run_ok hrun
  obtain ⟨vars, c₅, hdeclare, hrun⟩ := of_bind_run_ok hrun
  rw [bind_run_ok newLabel_run, bind_run_ok (emit_run _), bind_run_ok (openFrame_run _ _ _ _ _),
    pure_run] at hrun
  cases hrun
  obtain ⟨before, hbefore, hemits⟩ := prepare_lines hsettle hpop hdeclare
  refine ⟨before, hbefore, congrArg (· + 1) hemits.nextLabel, ?_⟩
  rw [← hemits.nextLabel]
  exact hemits.enter h hreached rfl rfl rfl

lemma openLoop_lines (hrun : openLoop m ty b = .ok results b') :
    ∃ before, (∀ line ∈ before, line.Straight) ∧ b'.nextLabel = b.nextLabel + 1 ∧
      Stands (⟨.loop, .numbered b.nextLabel⟩ :: outer) b b'
        (before ++ [Line.openLoop (.numbered b.nextLabel)]) true := by
  obtain ⟨⟨⟩, c₁, hlimit, hrun⟩ := of_bind_run_ok hrun
  cases eq_of_limitNesting hlimit
  obtain ⟨sig, c₂, hsig, hrun⟩ := of_bind_run_ok hrun
  cases eq_of_require hsig
  obtain ⟨⟨⟩, c₃, hsettle, hrun⟩ := of_bind_run_ok hrun
  obtain ⟨incoming, c₄, hpop, hrun⟩ := of_bind_run_ok hrun
  obtain ⟨vars, c₅, hdeclare, hrun⟩ := of_bind_run_ok hrun
  obtain ⟨params, c₆, hcopy, hrun⟩ := of_bind_run_ok hrun
  rw [bind_run_ok newLabel_run, bind_run_ok (emit_run _), bind_run_ok (openFrame_run _ _ _ _ _),
    pure_run] at hrun
  cases hrun
  obtain ⟨before, hbefore, hemits⟩ := prepare_lines hsettle hpop hdeclare
  -- the copies of the parameters follow what every construct has in front of it
  obtain ⟨copies, hcopies, hemits'⟩ := plain_declareParams incoming hcopy
  have hall := hemits.trans hemits'
  refine ⟨before ++ copies, List.forall_mem_append.2 ⟨hbefore, hcopies⟩,
    congrArg (· + 1) hall.nextLabel, ?_⟩
  rw [← hall.nextLabel]
  exact hall.enter h hreached rfl rfl rfl

lemma openIf_lines {hasElse : Bool} {arm : ElseArm} (hrun : openIf m ty hasElse b = .ok arm b') :
    arm.label = .numbered b.nextLabel ∧ ∃ before cond, (∀ line ∈ before, line.Straight) ∧
      b'.nextLabel = b.nextLabel + 1 ∧
      Stands (⟨.conditional, .numbered b.nextLabel⟩ :: outer) b b'
        (before ++ [Line.openBlock (.numbered b.nextLabel), .openIf cond]) true := by
  obtain ⟨⟨⟩, c₁, hlimit, hrun⟩ := of_bind_run_ok hrun
  cases eq_of_limitNesting hlimit
  obtain ⟨sig, c₂, hsig, hrun⟩ := of_bind_run_ok hrun
  cases eq_of_require hsig
  split at hrun
  · cases hrun
  · obtain ⟨cond, c₃, hcond, hrun⟩ := of_bind_run_ok hrun
    obtain ⟨⟨⟩, c₄, hsettle, hrun⟩ := of_bind_run_ok hrun
    obtain ⟨params, c₅, hpop, hrun⟩ := of_bind_run_ok hrun
    obtain ⟨vars, c₆, hdeclare, hrun⟩ := of_bind_run_ok hrun
    rw [bind_run_ok newLabel_run, bind_run_ok (emit_run _), bind_run_ok (emit_run _),
      bind_run_ok (openFrame_run _ _ _ _ _), pure_run, Builder.wrote_wrote] at hrun
    cases hrun
    obtain ⟨before, hbefore, hemits⟩ := prepare_lines hsettle hpop hdeclare
    have hall := (silent_popAtom _ hcond).trans hemits
    refine ⟨congrArg Label.numbered hall.nextLabel, before, cond, hbefore,
      congrArg (· + 1) hall.nextLabel, ?_⟩
    rw [← hall.nextLabel]
    exact hall.enter h hreached rfl rfl rfl

end Opening

/-- The line that leaves a loop at its end; other constructs need none. -/
def leaveLines (e : Enclosing) : List Line :=
  if e.kind = .loop then [.breakTo e.label] else []

lemma fallThrough_lines {through : Bool} (h : Around (e :: outer) b)
    (hflag : b.current.unreachable = !through) (hrun : fallThrough b = .ok () b') :
    ∃ ends, EndLines through (leaveLines e) ends ∧ Emits b b' ends := by
  obtain ⟨hkind, hlabel⟩ := h.current
  rw [fallThrough, bind_run_ok (get_run b)] at hrun
  cases through with
  | false =>
    have hunreachable : b.current.unreachable = true := hflag
    rw [if_pos hunreachable] at hrun
    cases hrun
    exact ⟨[], rfl, .refl _⟩
  | true =>
    rw [if_neg (by simp [hflag])] at hrun
    obtain ⟨values, b₁, htake, hrun⟩ := of_bind_run_ok hrun
    obtain ⟨⟨⟩, b₂, hassign, hrun⟩ := of_bind_run_ok hrun
    obtain ⟨moves, hmoves, hemits⟩ := plain_assignAll _ _ hassign
    have hbefore := (silent_takeResults _ htake).trans hemits
    refine ⟨moves ++ leaveLines e, ⟨moves, hmoves, rfl⟩, hbefore.trans ?_⟩
    have hloop : b.current.kind = .loop ↔ e.kind = .loop := by
      rw [hkind]
      cases e.kind <;> simp [ConstructKind.frameKind]
    unfold leaveLines
    split at hrun
    case isTrue hk =>
      rw [if_pos (hloop.1 hk), ← hlabel]
      cases (emit_run _).symm.trans hrun
      exact .wrote b₂ 0 _
    case isFalse hk =>
      rw [if_neg (fun he => hk (hloop.2 he))]
      cases hrun
      exact .refl _

/-- The end of a construct whose frame has been left. -/
lemma close_lines {scopes : Nat} {results : Target} (h : Around outer b)
    (hreached : b.current.unreachable = false)
    (hrun : (do closeScopes scopes; pushAllBound results.vars results.types) b = .ok () b') :
    b'.nextLabel = b.nextLabel ∧ Stands outer b b' (List.replicate scopes .close) true := by
  rw [bind_run_ok (closeScopes_run _)] at hrun
  have hemits :=
    (Emits.wrote b 0 (List.replicate scopes .close)).trans (silent_pushAllBound _ _ hrun)
  rw [List.append_nil] at hemits
  exact ⟨hemits.nextLabel, hemits.stands h hreached⟩

/-- The end of a body, and of the frame of its construct. -/
lemma endFrame_lines {through : Bool} {c : Builder} (h : Around (e :: outer) b)
    (hflag : b.current.unreachable = !through) (hfall : fallThrough b = .ok () c)
    (hleave : closeFrame c = .ok () b') :
    ∃ ends, EndLines through (leaveLines e) ends ∧ b'.nextLabel = b.nextLabel ∧
      Stands outer b b' ends true := by
  obtain ⟨ends, hends, hemits⟩ := fallThrough_lines h hflag hfall
  obtain ⟨hout, hlabel⟩ := (hemits.around h).leave hleave
  refine ⟨ends, hends, hlabel.trans hemits.nextLabel, ?_, hout.around, hout.unreachable⟩
  rw [hout.out, hemits.out, List.append_nil]

/-- The end of a construct. -/
lemma endConstruct_lines {through : Bool} {scopes : Nat} {results : Target}
    (h : Around (e :: outer) b) (hflag : b.current.unreachable = !through)
    (hrun : endConstruct true scopes results b = .ok () b') :
    ∃ ends, EndLines through (leaveLines e) ends ∧ b'.nextLabel = b.nextLabel ∧
      Stands outer b b' (ends ++ List.replicate scopes .close) true := by
  rw [endConstruct, if_pos rfl] at hrun
  obtain ⟨⟨⟩, b₁, hfall, hrun⟩ := of_bind_run_ok hrun
  obtain ⟨⟨⟩, b₂, hleave, hrun⟩ := of_bind_run_ok hrun
  obtain ⟨ends, hends, hlabel, hout⟩ := endFrame_lines h hflag hfall hleave
  obtain ⟨hlabel', hclosed⟩ := close_lines hout.around hout.unreachable hrun
  exact ⟨ends, hends, hlabel'.trans hlabel, hout.trans hclosed⟩

/-- The second arm of a conditional has the label of the first one. -/
lemma openElse_lines {arm : ElseArm} (h : Around outer b) (hreached : b.current.unreachable = false)
    (hrun : openElse arm b = .ok () b') :
    b'.nextLabel = b.nextLabel ∧
      Stands (⟨.conditional, arm.label⟩ :: outer) b b' [.openElse] true := by
  cases (openElse_run arm).symm.trans hrun
  have hemits := Emits.wrote b 0 [.openElse]
  refine ⟨rfl, hemits.out, (hemits.around h).inside hreached rfl rfl, rfl⟩

end

/-! ### Instructions and sequences -/

/-- What is written for an instruction, in front of what is written for the rest of its sequence. -/
structure InstrLines (outer : List Enclosing) (n : Nat) (instr : Instr) (n' : Nat)
    (lines : List Line) : Prop where
  cut : transfers instr = true → ∀ rest, SeqLines outer n (instr :: rest) n' false lines
  goesOn : transfers instr = false → ∀ {rest n'' reached lines'},
    SeqLines outer n' rest n'' reached lines' →
      SeqLines outer n (instr :: rest) n'' reached (lines ++ lines')

mutual

/-- Lowering an instruction writes lines of its shape. -/
lemma lowerInstr_lines (m : Module) (instr : Instr) {outer : List Enclosing} {b b' : Builder}
    (h : Around outer b) (hreached : b.current.unreachable = false)
    (hrun : lowerInstr m instr b = .ok () b') :
    ∃ lines, InstrLines outer b.nextLabel instr b'.nextLabel lines ∧
      Stands outer b b' lines (!transfers instr) := by
  cases instr with
  | block ty body =>
    rw [lowerInstr] at hrun
    obtain ⟨results, b₁, hopen, hrun⟩ := of_bind_run_ok hrun
    obtain ⟨⟨⟩, b₂, hbody, hend⟩ := of_bind_run_ok hrun
    obtain ⟨before, hbefore, hnext, hstands₁⟩ := openBlock_lines h hreached hopen
    obtain ⟨lines, through, hlines, hstands₂⟩ :=
      lowerSeq_lines m body hstands₁.around hstands₁.unreachable hbody
    obtain ⟨ends, hends, hnext', hstands₃⟩ :=
      endConstruct_lines hstands₂.around hstands₂.unreachable hend
    refine ⟨_, ⟨nofun, fun _ _ _ _ _ hrest => ?_⟩, (hstands₁.trans hstands₂).trans hstands₃⟩
    rw [hnext] at hlines
    rw [hnext'] at hrest
    have hseq :=
      @SeqLines.block outer b.nextLabel _ _ ty body _ _ _ _ _ _ _ hbefore hlines hends hrest
    simpa only [List.append_assoc, List.replicate_one] using hseq
  | loop ty body =>
    rw [lowerInstr] at hrun
    obtain ⟨results, b₁, hopen, hrun⟩ := of_bind_run_ok hrun
    obtain ⟨⟨⟩, b₂, hbody, hend⟩ := of_bind_run_ok hrun
    obtain ⟨before, hbefore, hnext, hstands₁⟩ := openLoop_lines h hreached hopen
    obtain ⟨lines, through, hlines, hstands₂⟩ :=
      lowerSeq_lines m body hstands₁.around hstands₁.unreachable hbody
    obtain ⟨ends, hends, hnext', hstands₃⟩ :=
      endConstruct_lines hstands₂.around hstands₂.unreachable hend
    refine ⟨_, ⟨nofun, fun _ _ _ _ _ hrest => ?_⟩, (hstands₁.trans hstands₂).trans hstands₃⟩
    rw [hnext] at hlines
    rw [hnext'] at hrest
    have hseq :=
      @SeqLines.loop outer b.nextLabel _ _ ty body _ _ _ _ _ _ _ hbefore hlines hends hrest
    simpa only [List.append_assoc, List.replicate_one] using hseq
  | ifElse ty thenBody elseBody =>
    rw [lowerInstr] at hrun
    obtain ⟨arm, b₁, hopen, hrun⟩ := of_bind_run_ok hrun
    obtain ⟨⟨⟩, b₂, hthen, hrun⟩ := of_bind_run_ok hrun
    obtain ⟨⟨⟩, b₃, hendThen, hrun⟩ := of_bind_run_ok hrun
    obtain ⟨⟨⟩, c, hfall, hleave⟩ := of_bind_run_ok hendThen
    obtain ⟨hlabel, before, cond, hbefore, hnext₁, hstands₁⟩ := openIf_lines h hreached hopen
    obtain ⟨lines₁, through₁, hlines₁, hstands₂⟩ :=
      lowerSeq_lines m thenBody hstands₁.around hstands₁.unreachable hthen
    obtain ⟨ends₁, hends₁, hnext₂, hstands₃⟩ :=
      endFrame_lines hstands₂.around hstands₂.unreachable hfall hleave
    have hfirst := (hstands₁.trans hstands₂).trans hstands₃
    rw [hnext₁] at hlines₁
    cases hneeds : needsElse elseBody arm.results with
    | false =>
      -- without a second arm the scope of the label is closed along with the first
      have hempty : elseBody = [] := by
        simp only [needsElse, Bool.or_eq_false_iff] at hneeds
        simpa using hneeds.1
      subst hempty
      rw [hneeds] at hrun
      obtain ⟨hnext₃, hstands₄⟩ := close_lines hstands₃.around hstands₃.unreachable hrun
      refine ⟨_, ⟨nofun, fun _ _ _ _ _ hrest => ?_⟩, hfirst.trans hstands₄⟩
      rw [hnext₃, hnext₂] at hrest
      have hseq := @SeqLines.ifThen outer b.nextLabel _ _ ty thenBody _ cond _ _ _ _ _ _ hbefore
        hlines₁ hends₁ hrest
      simpa only [List.append_assoc, List.replicate, List.cons_append, List.nil_append] using hseq
    | true =>
      rw [hneeds, if_pos rfl] at hrun
      obtain ⟨⟨⟩, b₄, hopenElse, hrun⟩ := of_bind_run_ok hrun
      obtain ⟨⟨⟩, b₅, helse, hend⟩ := of_bind_run_ok hrun
      obtain ⟨hnext₃, hstands₄⟩ :=
        openElse_lines hstands₃.around hstands₃.unreachable hopenElse
      -- both arms are inside of the same labelled scope
      rw [hlabel] at hstands₄
      obtain ⟨lines₂, through₂, hlines₂, hstands₅⟩ :=
        lowerSeq_lines m elseBody hstands₄.around hstands₄.unreachable helse
      obtain ⟨ends₂, hends₂, hnext₄, hstands₆⟩ :=
        endConstruct_lines hstands₅.around hstands₅.unreachable hend
      refine ⟨_, ⟨nofun, fun _ _ _ _ _ hrest => ?_⟩,
        ((hfirst.trans hstands₄).trans hstands₅).trans hstands₆⟩
      rw [hnext₃, hnext₂] at hlines₂
      rw [hnext₄] at hrest
      have hseq := @SeqLines.ifElse outer b.nextLabel _ _ _ ty thenBody elseBody _ cond
        _ _ _ _ _ _ _ _ _ hbefore hlines₁ hends₁ hlines₂ hends₂ hrest
      simpa only [List.append_assoc, List.replicate, List.cons_append, List.nil_append] using hseq
  | _ =>
    simp only [lowerInstr] at hrun
    obtain ⟨lines, hlines, hnext, hstands⟩ := lowerSimple_lines rfl h hreached hrun
    rw [hnext]
    exact ⟨lines, ⟨fun hcut rest => .cut hlines hcut, fun hcut => .simple hlines hcut⟩, hstands⟩

/-- Lowering a sequence writes lines of its shape. -/
lemma lowerSeq_lines (m : Module) (body : List Instr) {outer : List Enclosing} {b b' : Builder}
    (h : Around outer b) (hreached : b.current.unreachable = false)
    (hrun : lowerSeq m body b = .ok () b') :
    ∃ lines reached, SeqLines outer b.nextLabel body b'.nextLabel reached lines ∧
      Stands outer b b' lines reached := by
  cases body with
  | nil =>
    rw [lowerSeq, pure_run] at hrun
    cases hrun
    exact ⟨[], true, .nil, (Emits.refl b).stands h hreached⟩
  | cons instr rest =>
    rw [lowerSeq, bind_run_ok (get_run b), if_neg (by simp [hreached])] at hrun
    obtain ⟨⟨⟩, b₁, hinstr, hrest⟩ := of_bind_run_ok hrun
    obtain ⟨lines, hlines, hstands⟩ := lowerInstr_lines m instr h hreached hinstr
    cases hcut : transfers instr with
    | true =>
      rw [hcut] at hstands
      -- the rest of the sequence is not lowered at all
      cases (lowerSeq_unreached hstands.unreachable).symm.trans hrest
      exact ⟨lines, false, hlines.cut hcut rest, hstands⟩
    | false =>
      rw [hcut] at hstands
      obtain ⟨lines', reached, hlines', hstands'⟩ :=
        lowerSeq_lines m rest hstands.around hstands.unreachable hrest
      exact ⟨lines ++ lines', reached, hlines.goesOn hcut hlines', hstands.trans hstands'⟩

end

end WasmAot.Lowering
