/-
# The shape of a lowered body

Which lines a sequence of instructions is written as, without reference to how they are produced.  A
construct becomes a labelled scope with the lines of its body inside.  A branch becomes a jump to
the label of the construct that it leads to: to its start if the construct is a loop, to its end
otherwise, and out of the function if it leads past all constructs.  What follows a branch in its
sequence is not written at all.

Lines of this shape open and close their scopes in pairs, introduce every label once, in the order
of their numbers, and jump only to labels of scopes that are open.
-/
import WasmAot.Proofs.Scoping.Instructions

namespace WasmAot.Code

/-! ### Labels of lines -/

namespace Line

/-- The line is a binding, an assignment or an operation. -/
def Straight : Line → Prop
  | bind .. | bindDynamic .. | bindTuple .. | assign .. | perform _ => True
  | _ => False

/-- The label that the line introduces. -/
def introduces : Line → Option Label
  | openBlock label | openLoop label => some label
  | _ => none

/-- The label that the line jumps to. -/
def jumpsTo : Line → Option Label
  | breakTo label | continueTo label => some label
  | _ => none

end Line

/-- The labels of the scopes around the next line, innermost first; not every scope has one. -/
abbrev Labels := List (Option Label)

/-- The labels after one more line. -/
def enterLabel (labels : Labels) (line : Line) : Labels :=
  match line.layout with
  | .opening _ => line.introduces :: labels
  | .closing _ => labels.tail
  | .reopening _ => none :: labels.tail
  | _ => labels

def labelsAfter (labels : Labels) (lines : List Line) : Labels :=
  lines.foldl enterLabel labels

/-- Every jump leads to the label of a scope that is open. -/
def JumpsInside : Labels → List Line → Prop
  | _, [] => True
  | labels, line :: lines =>
    (∀ label, line.jumpsTo = some label → some label ∈ labels) ∧
      JumpsInside (enterLabel labels line) lines

section

variable {labels : Labels} {lines lines' : List Line}

lemma labelsAfter_append :
    labelsAfter labels (lines ++ lines') = labelsAfter (labelsAfter labels lines) lines' :=
  List.foldl_append

lemma jumpsInside_append :
    JumpsInside labels (lines ++ lines') ↔
      JumpsInside labels lines ∧ JumpsInside (labelsAfter labels lines) lines' := by
  induction lines generalizing labels with
  | nil => simp [JumpsInside, labelsAfter]
  | cons line lines ih => simp only [List.cons_append, JumpsInside, ih, and_assoc]; rfl

/-- A jump stands between the line that opens the scope of its label and the line that closes it. -/
lemma JumpsInside.mem {line : Line} {label : Label} {before after : List Line}
    (h : JumpsInside labels (before ++ line :: after)) (hline : line.jumpsTo = some label) :
    some label ∈ labelsAfter labels before :=
  (jumpsInside_append.1 h).2.1 label hline

/-- Lines that close what they open leave the scopes around them as they are. -/
lemma labelsAfter_of_depth {d d' : Nat} {inner : Labels} (hinner : inner.length = d)
    (hdepth : depthAfter d lines = some d') :
    ∃ inner' : Labels,
      inner'.length = d' ∧ labelsAfter (inner ++ labels) lines = inner' ++ labels := by
  induction lines generalizing d inner with
  | nil =>
    cases hdepth
    exact ⟨inner, hinner, rfl⟩
  | cons line lines ih =>
    simp only [depthAfter] at hdepth
    change ∃ inner' : Labels, inner'.length = d' ∧
      labelsAfter (enterLabel (inner ++ labels) line) lines = inner' ++ labels
    unfold enterLabel
    -- what the line does to the depth it does to the list of labels
    cases hlayout : line.layout <;> rw [hlayout] at hdepth
    case opening => exact @ih _ (line.introduces :: inner) (by simp [hinner]) hdepth
    case closing =>
      cases inner with
      | nil => cases hinner; cases hdepth
      | cons label inner => cases hinner; exact ih rfl hdepth
    case reopening =>
      cases inner with
      | nil => cases hinner; cases hdepth
      | cons label inner => cases hinner; exact @ih _ (none :: inner) rfl hdepth
    all_goals exact ih hinner hdepth

end

end WasmAot.Code

namespace WasmAot.Lowering

open Code

lemma labelsAfter_of_level {lines : List Line} (h : Level lines) (labels : Labels) :
    labelsAfter labels lines = labels := by
  obtain ⟨inner, hinner, hlabels⟩ := @labelsAfter_of_depth labels lines 0 0 [] rfl (h 0)
  cases List.eq_nil_of_length_eq_zero hinner
  exact hlabels

/-! ### Branches -/

/-- What a construct is. -/
inductive ConstructKind where
  | block
  | loop
  | conditional
  deriving DecidableEq

/-- A construct around the current place. -/
structure Enclosing where
  kind : ConstructKind
  label : Label

/-- The line is the jump for a branch that leads `levels` constructs outward.  A loop is continued,
another construct is left, and past the last construct the function returns. -/
def IsJump (outer : List Enclosing) (levels : Nat) : Line → Prop
  | .continueTo label => outer[levels]? = some ⟨.loop, label⟩
  | .breakTo label =>
    outer[levels]? = some ⟨.block, label⟩ ∨ outer[levels]? = some ⟨.conditional, label⟩
  | .returnOk _ => levels = outer.length
  | _ => False

/-- The lines of a branch: the values are moved, then control is. -/
def BranchLines (outer : List Enclosing) (levels : Nat) (lines : List Line) : Prop :=
  ∃ moves jump, (∀ line ∈ moves, line.Straight) ∧ IsJump outer levels jump ∧ lines = moves ++ [jump]

/-- The lines that run for a number: those of the first arm that lists it, or else the last ones. -/
def chosenLines (arms : List (List Nat × List Line)) (otherwise : List Line) (s : Nat) :
    List Line :=
  match arms.find? (s ∈ ·.1) with
  | some arm => arm.2
  | none => otherwise

/-- The lines of a branch table: for each number the branch to its target, and for all numbers
beyond the list that to the default. -/
def BranchTableLines (outer : List Enclosing) (targets : List Nat) (default : Nat)
    (lines : List Line) : Prop :=
  ∃ selector arms otherwise,
    lines = [.openMatch selector] ++
      (arms.flatMap (fun arm => [.openCases arm.1] ++ arm.2 ++ [.close]) ++
        ([.openOtherwise] ++ otherwise ++ [.close])) ++ [.close] ∧
    BranchLines outer default otherwise ∧
    (∀ arm ∈ arms, ∃ levels ∈ targets, BranchLines outer levels arm.2) ∧
    (∀ s levels, targets[s]? = some levels →
      BranchLines outer levels (chosenLines arms otherwise s)) ∧
    ∀ s, targets.length ≤ s → chosenLines arms otherwise s = otherwise

/-! ### Instructions and sequences -/

/-- Control never goes on behind the instruction. -/
def transfers : Instr → Bool
  | .unreachable | .br _ | .brTable .. | .ret => true
  | _ => false

/-- The lines of an instruction that owns no others.  A copy between two tables may have to find out
first whether they are the same. -/
def SimpleLines (outer : List Enclosing) (lines : List Line) : Instr → Prop
  | .block .. | .loop .. | .ifElse .. => False
  | .unreachable => lines = [.returnTrap]
  | .br levels => BranchLines outer levels lines
  | .brIf levels =>
    ∃ cond branch, BranchLines outer levels branch ∧ lines = [.openIf cond] ++ branch ++ [.close]
  | .brTable targets default => BranchTableLines outer targets default lines
  | .ret => BranchLines outer outer.length lines
  | .tableCopy dst src =>
    (∀ line ∈ lines, line.Straight) ∨
      ∃ same other, (∀ line ∈ same ++ other, line.Straight) ∧
        lines = [.openIfSame src dst] ++ same ++ [.openElse] ++ other ++ [.close]
  | _ => ∀ line ∈ lines, line.Straight

/-- The lines at the end of a construct, if its end is reached. -/
def EndLines (reached : Bool) (leave ends : List Line) : Prop :=
  if reached then ∃ moves, (∀ line ∈ moves, line.Straight) ∧ ends = moves ++ leave else ends = []

/-- The lines of a sequence, from the first free label to the next one.  The flag says whether the
end of the sequence is reached. -/
inductive SeqLines : List Enclosing → Nat → List Instr → Nat → Bool → List Line → Prop
  | nil {outer : List Enclosing} {n : Nat} : SeqLines outer n [] n true []
  | cut {outer : List Enclosing} {n : Nat} {instr : Instr} {rest : List Instr} {lines : List Line}
      (hlines : SimpleLines outer lines instr) (hcut : transfers instr = true) :
      SeqLines outer n (instr :: rest) n false lines
  | simple {outer : List Enclosing} {n n' : Nat} {instr : Instr} {rest : List Instr}
      {lines lines' : List Line} {reached : Bool}
      (hlines : SimpleLines outer lines instr) (hcut : transfers instr = false)
      (hrest : SeqLines outer n rest n' reached lines') :
      SeqLines outer n (instr :: rest) n' reached (lines ++ lines')
  | block {outer : List Enclosing} {n n₁ n' : Nat} {ty : BlockType} {body rest : List Instr}
      {before lines ends lines' : List Line} {through reached : Bool}
      (hbefore : ∀ line ∈ before, line.Straight)
      (hbody : SeqLines (⟨.block, .numbered n⟩ :: outer) (n + 1) body n₁ through lines)
      (hends : EndLines through [] ends)
      (hrest : SeqLines outer n₁ rest n' reached lines') :
      SeqLines outer n (.block ty body :: rest) n' reached
        (before ++ ([.openBlock (.numbered n)] ++ (lines ++ ends) ++ [.close]) ++ lines')
  | loop {outer : List Enclosing} {n n₁ n' : Nat} {ty : BlockType} {body rest : List Instr}
      {before lines ends lines' : List Line} {through reached : Bool}
      (hbefore : ∀ line ∈ before, line.Straight)
      (hbody : SeqLines (⟨.loop, .numbered n⟩ :: outer) (n + 1) body n₁ through lines)
      (hends : EndLines through [.breakTo (.numbered n)] ends)
      (hrest : SeqLines outer n₁ rest n' reached lines') :
      SeqLines outer n (.loop ty body :: rest) n' reached
        (before ++ ([.openLoop (.numbered n)] ++ (lines ++ ends) ++ [.close]) ++ lines')
  | ifThen {outer : List Enclosing} {n n₁ n' : Nat} {ty : BlockType} {body rest : List Instr}
      {cond : Atom} {before lines ends lines' : List Line} {through reached : Bool}
      (hbefore : ∀ line ∈ before, line.Straight)
      (hbody : SeqLines (⟨.conditional, .numbered n⟩ :: outer) (n + 1) body n₁ through lines)
      (hends : EndLines through [] ends)
      (hrest : SeqLines outer n₁ rest n' reached lines') :
      SeqLines outer n (.ifElse ty body [] :: rest) n' reached
        (before ++ ([.openBlock (.numbered n)] ++ ([.openIf cond] ++ (lines ++ ends) ++ [.close]) ++
          [.close]) ++ lines')
  | ifElse {outer : List Enclosing} {n n₁ n₂ n' : Nat} {ty : BlockType}
      {thenBody elseBody rest : List Instr} {cond : Atom}
      {before lines₁ ends₁ lines₂ ends₂ lines' : List Line} {through₁ through₂ reached : Bool}
      (hbefore : ∀ line ∈ before, line.Straight)
      (hthen : SeqLines (⟨.conditional, .numbered n⟩ :: outer) (n + 1) thenBody n₁ through₁ lines₁)
      (hends₁ : EndLines through₁ [] ends₁)
      (helse : SeqLines (⟨.conditional, .numbered n⟩ :: outer) n₁ elseBody n₂ through₂ lines₂)
      (hends₂ : EndLines through₂ [] ends₂)
      (hrest : SeqLines outer n₂ rest n' reached lines') :
      SeqLines outer n (.ifElse ty thenBody elseBody :: rest) n' reached
        (before ++ ([.openBlock (.numbered n)] ++ ([.openIf cond] ++ (lines₁ ++ ends₁) ++
          [.openElse] ++ (lines₂ ++ ends₂) ++ [.close]) ++ [.close]) ++ lines')

/-! ### Lines that are in order -/

/-- The lines close what they open, introduce these labels, and jump only to scopes that are open if
those of the enclosing constructs are. -/
structure Tidy (outer : List Enclosing) (labels : List Label) (lines : List Line) : Prop where
  level : Level lines
  introduced : lines.filterMap Line.introduces = labels
  jumps : ∀ around : Labels, (∀ e ∈ outer, some e.label ∈ around) → JumpsInside around lines

namespace Tidy

variable {outer : List Enclosing} {labels labels' : List Label} {lines lines' : List Line}

lemma nil : Tidy outer [] [] :=
  ⟨fun _ => rfl, rfl, fun _ _ => trivial⟩

lemma append (h : Tidy outer labels lines) (h' : Tidy outer labels' lines') :
    Tidy outer (labels ++ labels') (lines ++ lines') := by
  refine ⟨h.level.append h'.level, ?_, fun around haround => jumpsInside_append.2 ⟨?_, ?_⟩⟩
  · rw [List.filterMap_append, h.introduced, h'.introduced]
  · exact h.jumps around haround
  · -- the first lines leave no scope open, so the second ones are among the same labels
    rw [labelsAfter_of_level h.level]
    exact h'.jumps around haround

/-- A line that neither opens nor closes a scope. -/
lemma plain {line : Line} {text : String} (hlayout : line.layout = .plain text)
    (hintroduces : line.introduces = none)
    (hjump : ∀ label, line.jumpsTo = some label → ∃ e ∈ outer, e.label = label) :
    Tidy outer [] [line] := by
  refine ⟨fun d => ?_, ?_, fun around haround => ⟨fun label hlabel => ?_, trivial⟩⟩
  · simp only [depthAfter, hlayout]
  · rw [List.filterMap_cons_none hintroduces, List.filterMap_nil]
  · obtain ⟨e, he, rfl⟩ := hjump label hlabel
    exact haround e he

lemma straight (h : ∀ line ∈ lines, line.Straight) : Tidy outer [] lines := by
  induction lines with
  | nil => exact nil
  | cons line lines ih =>
    obtain ⟨hline, hlines⟩ := List.forall_mem_cons.1 h
    have hfirst : Tidy outer [] [line] := by
      cases line with
      | bind | bindDynamic | bindTuple | assign | perform => exact plain rfl rfl nofun
      | _ => exact absurd hline id
    exact hfirst.append (ih hlines)

lemma jumpsInside_of_none {line : Line} (h : line.jumpsTo = none) (around : Labels) :
    JumpsInside around [line] := by
  simp [JumpsInside, h]

/-- A line that opens a scope does not jump. -/
lemma jumpsInside_opener {opener : Line} {text : String} (h : opener.layout = .opening text)
    (around : Labels) : JumpsInside around [opener] := by
  have hnone : opener.jumpsTo = none := by
    cases opener with
    | breakTo | continueTo => cases h
    | _ => rfl
  exact jumpsInside_of_none hnone around

lemma introduced_singleton (line : Line) :
    [line].filterMap Line.introduces = line.introduces.toList := by
  cases hline : line.introduces with
  | none => rw [List.filterMap_cons_none hline]; rfl
  | some label => rw [List.filterMap_cons_some hline]; rfl

/-- Lines in a scope of their own, which may have a label. -/
lemma enclosed {inner : List Enclosing} {opener : Line} {text : String}
    (h : Tidy inner labels lines) (hlayout : opener.layout = .opening text)
    (hinner : ∀ e ∈ inner, e ∈ outer ∨ opener.introduces = some e.label) :
    Tidy outer (opener.introduces.toList ++ labels) ([opener] ++ lines ++ [Line.close]) := by
  refine ⟨h.level.scope hlayout, ?_, fun around haround => ?_⟩
  · simp only [List.filterMap_append, h.introduced, introduced_singleton]
    exact List.append_nil _
  · have hopen : labelsAfter around [opener] = opener.introduces :: around := by
      simp only [labelsAfter, List.foldl_cons, List.foldl_nil, enterLabel, hlayout]
    refine jumpsInside_append.2
      ⟨jumpsInside_append.2 ⟨jumpsInside_opener hlayout around, ?_⟩, jumpsInside_of_none rfl _⟩
    rw [hopen]
    -- a label that the lines may jump to is one from outside or that of the new scope
    refine h.jumps _ fun e he => ?_
    rcases hinner e he with hmem | hlabel
    · exact List.mem_cons_of_mem _ (haround e hmem)
    · rw [hlabel]
      exact List.mem_cons_self

lemma scope (opener : Line) {text : String} (h : Tidy outer labels lines)
    (hlayout : opener.layout = .opening text) (hopener : opener.introduces = none) :
    Tidy outer labels ([opener] ++ lines ++ [Line.close]) := by
  have henclosed := h.enclosed hlayout fun e he => .inl he
  rwa [hopener] at henclosed

/-- The scope of a construct. -/
lemma construct (opener : Line) {text : String} {e : Enclosing} (h : Tidy (e :: outer) labels lines)
    (hlayout : opener.layout = .opening text) (hopener : opener.introduces = some e.label) :
    Tidy outer (e.label :: labels) ([opener] ++ lines ++ [Line.close]) := by
  have henclosed :
      Tidy outer (opener.introduces.toList ++ labels) ([opener] ++ lines ++ [Line.close]) := by
    refine h.enclosed hlayout fun e' he => ?_
    rcases List.mem_cons.1 he with rfl | he
    · exact .inr hopener
    · exact .inl he
  rwa [hopener] at henclosed

/-- Two arms, one of which runs. -/
lemma arms (opener : Line) {text : String} (h : Tidy outer labels lines)
    (h' : Tidy outer labels' lines') (hlayout : opener.layout = .opening text)
    (hopener : opener.introduces = none) :
    Tidy outer (labels ++ labels')
      ([opener] ++ lines ++ [Line.openElse] ++ lines' ++ [Line.close]) := by
  have hopen (d : Nat) : depthAfter d [opener] = some (d + 1) := by simp only [depthAfter, hlayout]
  have hlabels (around : Labels) : labelsAfter around [opener] = none :: around := by
    simp only [labelsAfter, List.foldl_cons, List.foldl_nil, enterLabel, hlayout, hopener]
  have hinside {around : Labels} (haround : ∀ e ∈ outer, some e.label ∈ around) :
      ∀ e ∈ outer, some e.label ∈ none :: around :=
    fun e he => List.mem_cons_of_mem _ (haround e he)
  refine ⟨fun d => ?_, ?_, fun around haround => ?_⟩
  · have helse : depthAfter (d + 1) [.openElse] = some (d + 1) := rfl
    simp only [depthAfter_append, hopen, Option.bind_some, h.level (d + 1), helse,
      h'.level (d + 1)]
    rfl
  · simp only [List.filterMap_append, h.introduced, h'.introduced, introduced_singleton, hopener]
    simp [Line.introduces]
  · have helse : labelsAfter (none :: around) [.openElse] = none :: around := rfl
    simp only [jumpsInside_append, labelsAfter_append, hlabels, labelsAfter_of_level h.level, helse]
    exact ⟨⟨⟨⟨jumpsInside_opener hlayout around, h.jumps _ (hinside haround)⟩,
      jumpsInside_of_none rfl _⟩, h'.jumps _ (hinside haround)⟩, jumpsInside_of_none rfl _⟩

end Tidy

/-! ### The shape is tidy -/

section

variable {outer : List Enclosing} {lines : List Line}

lemma tidy_branchLines {levels : Nat} (h : BranchLines outer levels lines) :
    Tidy outer [] lines := by
  obtain ⟨moves, jump, hmoves, hjump, rfl⟩ := h
  refine (Tidy.straight hmoves).append ?_
  cases jump with
  | returnOk values => exact .plain rfl rfl nofun
  | continueTo label =>
    refine .plain rfl rfl fun l hl => ?_
    cases hl
    exact ⟨_, List.mem_of_getElem? hjump, rfl⟩
  | breakTo label =>
    refine .plain rfl rfl fun l hl => ?_
    cases hl
    rcases hjump with hjump | hjump
    · exact ⟨_, List.mem_of_getElem? hjump, rfl⟩
    · exact ⟨_, List.mem_of_getElem? hjump, rfl⟩
  | _ => exact absurd hjump id

lemma tidy_branchTableLines {targets : List Nat} {default : Nat}
    (h : BranchTableLines outer targets default lines) : Tidy outer [] lines := by
  obtain ⟨selector, arms, otherwise, rfl, hdefault, harms, -, -⟩ := h
  have harms' : Tidy outer []
      (arms.flatMap fun arm => [Line.openCases arm.1] ++ arm.2 ++ [Line.close]) := by
    induction arms with
    | nil => exact .nil
    | cons arm arms ih =>
      obtain ⟨⟨levels, -, harm⟩, hrest⟩ := List.forall_mem_cons.1 harms
      exact ((tidy_branchLines harm).scope (.openCases arm.1) rfl rfl).append (ih hrest)
  have hotherwise : Tidy outer [] ([Line.openOtherwise] ++ otherwise ++ [Line.close]) :=
    (tidy_branchLines hdefault).scope .openOtherwise rfl rfl
  exact (harms'.append hotherwise).scope (.openMatch selector) rfl rfl

lemma tidy_simpleLines {instr : Instr} (h : SimpleLines outer lines instr) :
    Tidy outer [] lines := by
  cases instr with
  | block | loop | ifElse => exact absurd h id
  | unreachable =>
    cases h
    exact .plain rfl rfl nofun
  | br | ret => exact tidy_branchLines h
  | brIf levels =>
    obtain ⟨cond, branch, hbranch, rfl⟩ := h
    exact (tidy_branchLines hbranch).scope (.openIf cond) rfl rfl
  | brTable targets default => exact tidy_branchTableLines h
  | tableCopy dst src =>
    rcases h with h | ⟨same, other, hlines, rfl⟩
    · exact .straight h
    · obtain ⟨hsame, hother⟩ := List.forall_mem_append.1 hlines
      exact Tidy.arms (.openIfSame src dst) (.straight hsame) (.straight hother) rfl rfl
  | _ => exact .straight h

lemma tidy_endLines {reached : Bool} {leave ends : List Line} (hleave : Tidy outer [] leave)
    (h : EndLines reached leave ends) : Tidy outer [] ends := by
  unfold EndLines at h
  split at h
  · obtain ⟨moves, hmoves, rfl⟩ := h
    exact (Tidy.straight hmoves).append hleave
  · rw [h]
    exact .nil

/-- The labels of a range of numbers. -/
def labelRange (first count : Nat) : List Label :=
  (List.range' first count).map .numbered

lemma labelRange_append (first count count' : Nat) :
    labelRange first count ++ labelRange (first + count) count' =
      labelRange first (count + count') := by
  rw [labelRange, labelRange, labelRange, ← List.map_append, List.range'_append_1]

lemma labelRange_cons (first count : Nat) :
    .numbered first :: labelRange (first + 1) count = labelRange first (1 + count) := by
  rw [← labelRange_append]
  rfl

/-- The lines in front of a construct, its scope and the lines behind it. -/
lemma Tidy.around {n count count' : Nat} {before inner rest : List Line}
    (hbefore : ∀ line ∈ before, line.Straight)
    (hinner : Tidy outer (.numbered n :: labelRange (n + 1) count) inner)
    (hrest : Tidy outer (labelRange (n + 1 + count) count') rest) :
    Tidy outer (labelRange n (1 + count + count')) (before ++ inner ++ rest) := by
  have hall := ((Tidy.straight hbefore).append hinner).append hrest
  rwa [List.nil_append, labelRange_cons, Nat.add_assoc n, labelRange_append] at hall

/-- The lines of a sequence are in order, and introduce the labels from the first free one to the
next one. -/
lemma SeqLines.tidy {n n' : Nat} {body : List Instr} {reached : Bool}
    (h : SeqLines outer n body n' reached lines) :
    ∃ count, n' = n + count ∧ Tidy outer (labelRange n count) lines := by
  induction h with
  | nil => exact ⟨0, rfl, .nil⟩
  | cut hlines _ => exact ⟨0, rfl, tidy_simpleLines hlines⟩
  | simple hlines _ _ ih =>
    obtain ⟨count, rfl, hrest⟩ := ih
    exact ⟨count, rfl, (tidy_simpleLines hlines).append hrest⟩
  | @block outer n _ _ _ _ _ _ _ _ _ _ _ hbefore _ hends _ ihbody ihrest =>
    obtain ⟨count, rfl, hbody⟩ := ihbody
    obtain ⟨count', rfl, hrest⟩ := ihrest
    have hinside := hbody.append (tidy_endLines .nil hends)
    rw [List.append_nil] at hinside
    exact ⟨1 + count + count', by omega,
      .around hbefore (hinside.construct (.openBlock (.numbered n)) rfl rfl) hrest⟩
  | @loop outer n _ _ _ _ _ _ _ _ _ _ _ hbefore _ hends _ ihbody ihrest =>
    obtain ⟨count, rfl, hbody⟩ := ihbody
    obtain ⟨count', rfl, hrest⟩ := ihrest
    -- the end of its body leaves a loop by a break to its own label
    have hleave : Tidy (⟨.loop, .numbered n⟩ :: outer) [] [.breakTo (.numbered n)] := by
      refine .plain rfl rfl fun label hlabel => ?_
      cases hlabel
      exact ⟨_, List.mem_cons_self, rfl⟩
    have hinside := hbody.append (tidy_endLines hleave hends)
    rw [List.append_nil] at hinside
    exact ⟨1 + count + count', by omega,
      .around hbefore (hinside.construct (.openLoop (.numbered n)) rfl rfl) hrest⟩
  | @ifThen outer n _ _ _ _ _ cond _ _ _ _ _ _ hbefore _ hends _ ihbody ihrest =>
    obtain ⟨count, rfl, hbody⟩ := ihbody
    obtain ⟨count', rfl, hrest⟩ := ihrest
    have hinside := hbody.append (tidy_endLines .nil hends)
    rw [List.append_nil] at hinside
    have harm := hinside.scope (.openIf cond) rfl rfl
    exact ⟨1 + count + count', by omega,
      .around hbefore (harm.construct (.openBlock (.numbered n)) rfl rfl) hrest⟩
  | @ifElse outer n _ _ _ _ _ _ _ cond _ _ _ _ _ _ _ _ _ hbefore _ hends₁ _ hends₂ _ ihthen ihelse
      ihrest =>
    obtain ⟨count₁, rfl, hthen⟩ := ihthen
    obtain ⟨count₂, rfl, helse⟩ := ihelse
    obtain ⟨count', rfl, hrest⟩ := ihrest
    have hfirst := hthen.append (tidy_endLines .nil hends₁)
    have hsecond := helse.append (tidy_endLines .nil hends₂)
    rw [List.append_nil] at hfirst hsecond
    have harms := hfirst.arms (.openIf cond) hsecond rfl rfl
    rw [labelRange_append] at harms
    rw [Nat.add_assoc (n + 1)] at hrest
    exact ⟨1 + (count₁ + count₂) + count', by omega,
      .around hbefore (harms.construct (.openBlock (.numbered n)) rfl rfl) hrest⟩

end

end WasmAot.Lowering
