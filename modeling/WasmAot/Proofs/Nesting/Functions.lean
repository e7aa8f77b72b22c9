/-
# Labels and braces of a method

The lines of every method that is lowered have the shape of its function.  So its text opens and
closes its braces in pairs, each label is introduced once, every jump stands inside of the construct
whose label it names, and each branch leads to the construct that WebAssembly says.
-/
import Mathlib.Data.List.Nodup
import WasmAot.Proofs.Nesting.Lowered

namespace WasmAot.Text

/-! ### Braces -/

/-- The line closes a level, if only for the moment. -/
def Line.closes : Line → Bool
  | closing _ | reopening _ => true
  | _ => false

/-- The level after some lines. -/
def levelAfter (level : Nat) (lines : List Line) : Nat :=
  (lines.foldl Sheet.write (Sheet.start level)).level

/-- No line closes a level that was open before the first of them, and at the end all levels are
closed that they opened. -/
structure Balanced (level : Nat) (lines : List Line) : Prop where
  inside : ∀ before line after, lines = before ++ line :: after → line.closes = true →
    level < levelAfter level before
  final : levelAfter level lines = level

/-- How many levels are open after some lines, if there were `d` before and the lines close no
others than these. -/
def openAfter : Nat → List Line → Option Nat
  | d, [] => some d
  | d, line :: lines =>
    match line, d with
    | .opening _, d => openAfter (d + 1) lines
    | .closing _, 0 | .reopening _, 0 => none
    | .closing _, d + 1 => openAfter d lines
    | .reopening _, d + 1 => openAfter (d + 1) lines
    | _, d => openAfter d lines

lemma openAfter_append (d : Nat) (lines lines' : List Line) :
    openAfter d (lines ++ lines') = (openAfter d lines).bind fun d' => openAfter d' lines' := by
  induction lines generalizing d with
  | nil => rfl
  | cons line lines ih =>
    cases line <;> cases d <;> simp only [List.cons_append, openAfter, ih, Option.bind_none]

/-- The levels of a sheet are those that were open before and those that the lines have opened. -/
lemma level_of_openAfter {level d d' : Nat} {lines : List Line} {s : Sheet}
    (hs : s.level = level + d) (h : openAfter d lines = some d') :
    (lines.foldl Sheet.write s).level = level + d' ∧
      ∀ before line after, lines = before ++ line :: after → line.closes = true →
        level < (before.foldl Sheet.write s).level := by
  induction lines generalizing d s with
  | nil =>
    cases h
    exact ⟨hs, by simp⟩
  | cons line lines ih =>
    -- the first line leads to the next level, and it closes none that was open before
    obtain ⟨d₁, hwrite, hrest, hfirst⟩ : ∃ d₁, (s.write line).level = level + d₁ ∧
        openAfter d₁ lines = some d' ∧ (line.closes = true → level < s.level) := by
      cases line with
      | plain text => exact ⟨d, (Sheet.level_line s text).trans hs, h, nofun⟩
      | blank => exact ⟨d, hs, h, nofun⟩
      | verbatim text => exact ⟨d, hs, h, nofun⟩
      | opening text =>
        refine ⟨d + 1, ?_, h, nofun⟩
        simp only [Sheet.write, Sheet.level_line]
        omega
      | closing text =>
        cases d with
        | zero => cases h
        | succ d =>
          refine ⟨d, ?_, h, fun _ => by omega⟩
          simp only [Sheet.write, Sheet.level_line]
          omega
      | reopening text =>
        cases d with
        | zero => cases h
        | succ d =>
          refine ⟨d + 1, ?_, h, fun _ => by omega⟩
          simp only [Sheet.write, Sheet.level_line]
          omega
    obtain ⟨hfinal, hinside⟩ := ih hwrite hrest
    refine ⟨hfinal, fun before line' after heq hcloses => ?_⟩
    cases before with
    | nil =>
      cases heq
      exact hfirst hcloses
    | cons first before =>
      cases heq
      exact hinside before line' after rfl hcloses

lemma balanced_of_openAfter {lines : List Line} (h : openAfter 0 lines = some 0) (level : Nat) :
    Balanced level lines := by
  have hlevel : (Sheet.start level).level = level + 0 := rfl
  obtain ⟨hfinal, hinside⟩ := level_of_openAfter hlevel h
  exact ⟨hinside, hfinal⟩

end WasmAot.Text

namespace WasmAot.Code

/-- The levels of lines are those of their text. -/
lemma openAfter_layout (d : Nat) (lines : List Line) :
    Text.openAfter d (lines.map Line.layout) = depthAfter d lines := by
  induction lines generalizing d with
  | nil => rfl
  | cons line lines ih =>
    cases hlayout : line.layout <;> cases d <;>
      simp only [List.map_cons, Text.openAfter, depthAfter, hlayout, ih]

/-- Labels with different numbers are written differently. -/
lemma text_numbered_injective : Function.Injective fun n => (Label.numbered n).text := by
  intro a b h
  have hdigits : Nat.toDigits 10 a = Nat.toDigits 10 b := by
    simpa [Label.text, ← String.toList_inj, Nat.toList_repr] using h
  rw [← Nat.ofDigitChars_ten_toDigits (n := a), hdigits, Nat.ofDigitChars_ten_toDigits]

end WasmAot.Code

namespace WasmAot.Lowering

open Code Stateful

/-! ### Methods -/

/-- The lines of a function: declarations of its locals, the lines of its body, and a return if the
end of the body is reached. -/
def FunctionLines (body : List Instr) (labels : Nat) (lines : List Line) : Prop :=
  ∃ declared written ends reached, (∀ line ∈ declared, line.Straight) ∧
    SeqLines [] 0 body labels reached written ∧
    (if reached then BranchLines [] 0 ends else ends = []) ∧ lines = declared ++ written ++ ends

lemma around_functionStart (func : FuncDef) (type : FuncType) :
    Around [] (functionStart func type) :=
  ⟨rfl, nofun⟩

lemma straight_functionStart (func : FuncDef) (type : FuncType) :
    ∀ line ∈ (functionStart func type).out.toList, line.Straight := by
  intro line hline
  obtain ⟨p, -, rfl⟩ := List.mem_map.1 hline
  trivial

lemma endFunction_lines {b b' : Builder} {reached : Bool} (h : Around [] b)
    (hflag : b.current.unreachable = !reached) (hrun : endFunction b = .ok () b') :
    ∃ ends, (if reached then BranchLines [] 0 ends else ends = []) ∧ Emits b b' ends := by
  rw [endFunction, bind_run_ok (get_run b)] at hrun
  cases reached with
  | false =>
    have hunreachable : b.current.unreachable = true := hflag
    rw [if_pos hunreachable] at hrun
    cases hrun
    exact ⟨[], rfl, .refl _⟩
  | true =>
    have hdepth : b.depth = 0 := by
      have hlength := congrArg List.length h.places
      simpa [Builder.outlines, Builder.frames, Builder.depth] using hlength
    rw [if_neg (by simp [hflag]), hdepth] at hrun
    obtain ⟨values, b₁, htake, hout⟩ := of_bind_run_ok hrun
    have hbefore := silent_takeResults _ htake
    obtain ⟨ends, hends, hemits⟩ := branchOut_lines (hbefore.around h) hout
    exact ⟨ends, hends, hbefore.trans hemits⟩

/-- The lines of a lowered function have the shape of the function. -/
lemma functionLines_of_lowerFunction {m : Module} {position : Nat} {method : Method}
    (h : lowerFunction m position = .ok method) :
    ∃ func labels, m.functions[position]? = some func ∧
      FunctionLines func.body labels method.body := by
  obtain ⟨func, type, b, hfunc, -, hrun, rfl⟩ := lowerFunction_eq_ok_iff.1 h
  obtain ⟨⟨⟩, b₁, hbody, hend⟩ := of_bind_run_ok hrun
  obtain ⟨written, reached, hwritten, hstands⟩ :=
    lowerSeq_lines m func.body (around_functionStart func type) rfl hbody
  obtain ⟨ends, hends, hemits⟩ := endFunction_lines hstands.around hstands.unreachable hend
  refine ⟨func, b₁.nextLabel, hfunc, _, written, ends, reached, straight_functionStart func type,
    hwritten, hends, ?_⟩
  rw [hemits.out, hstands.out]

lemma FunctionLines.tidy {body : List Instr} {labels : Nat} {lines : List Line}
    (h : FunctionLines body labels lines) : Tidy [] (labelRange 0 labels) lines := by
  obtain ⟨declared, written, ends, reached, hdeclared, hwritten, hends, rfl⟩ := h
  obtain ⟨count, hcount, htidy⟩ := hwritten.tidy
  rw [Nat.zero_add] at hcount
  subst hcount
  have hends' : Tidy [] [] ends := by
    split at hends
    · exact tidy_branchLines hends
    · rw [hends]
      exact .nil
  have hall := ((Tidy.straight hdeclared).append htidy).append hends'
  rwa [List.nil_append, List.append_nil] at hall

/-- The braces of a method are those of its lines, and one more pair. -/
lemma openAfter_layout_method {method : Method} (h : Level method.body) :
    Text.openAfter 0 method.layout = some 0 := by
  have hhead : ∀ head, Text.openAfter 0 [.plain methodLints, .opening head] = some 1 := fun _ => rfl
  rw [Method.layout, Text.openAfter_append, Text.openAfter_append, hhead, Option.bind_some,
    openAfter_layout, h 1]
  rfl

/-- Labels and braces of every method that is lowered are well nested, and every branch goes where
WebAssembly says: the lines have the shape of the function, the braces of the text are balanced, the
labels are introduced in the order of their numbers, once each, and a jump stands inside of the
construct whose label it names. -/
theorem lowerFunction_wellNested {m : Module} {position : Nat} {method : Method}
    (h : lowerFunction m position = .ok method) :
    ∃ func labels, m.functions[position]? = some func ∧
      FunctionLines func.body labels method.body ∧
      Text.Balanced 1 method.layout ∧
      method.body.filterMap Line.introduces = (List.range labels).map .numbered ∧
      ((method.body.filterMap Line.introduces).map Label.text).Nodup ∧
      ∀ before line after label, method.body = before ++ line :: after →
        line.jumpsTo = some label → some label ∈ labelsAfter [] before := by
  obtain ⟨func, labels, hfunc, hlines⟩ := functionLines_of_lowerFunction h
  have htidy := hlines.tidy
  have hintroduced : method.body.filterMap Line.introduces = (List.range labels).map .numbered := by
    rw [htidy.introduced, labelRange, List.range_eq_range']
  refine ⟨func, labels, hfunc, hlines,
    Text.balanced_of_openAfter (openAfter_layout_method htidy.level) 1, hintroduced, ?_, ?_⟩
  · rw [hintroduced, List.map_map]
    exact List.nodup_range.map text_numbered_injective
  · intro before line after label hbody hjump
    have hjumps := htidy.jumps [] (List.forall_mem_nil _)
    rw [hbody] at hjumps
    exact hjumps.mem hjump

/-- A function that branches out of a loop, to its start, and out of itself. -/
def winding : FuncDef where
  type := 0
  locals := []
  body :=
    [.block .empty
      [.loop .empty
        [.localGet 0, .brIf 1, .localGet 0,
          .ifElse .empty [.br 1] [.localGet 0, .brTable [1, 2] 3, .br 0]]]]

/-- The module of this one function. -/
def windingModule : Module :=
  { types := [{ params := [.i32], results := [] }], functions := [winding] }

/-- The lines of the function.  The last branch is never reached. -/
def windingLines : List Line :=
  [.openBlock (.numbered 0), .openLoop (.numbered 1),
    .openIf (.name (.slot 0)), .breakTo (.numbered 0), .close,
    .openBlock (.numbered 2), .openIf (.name (.slot 0)), .continueTo (.numbered 1), .openElse,
    .openMatch (.name (.slot 0)), .openCases [0], .continueTo (.numbered 1), .close,
    .openCases [1], .breakTo (.numbered 0), .close, .openOtherwise, .returnOk [], .close, .close,
    .close, .close, .breakTo (.numbered 1), .close, .close, .returnOk []]

theorem lowerFunction_wellNested_winding :
    lowerFunction windingModule 0 = .ok ⟨0, { params := [.i32], results := [] }, windingLines⟩ ∧
      FunctionLines winding.body 3 windingLines ∧
      Text.Balanced 1 (Method.layout ⟨0, { params := [.i32], results := [] }, windingLines⟩) ∧
      some (.numbered 1) ∈ labelsAfter [] (windingLines.take 7) := by
  have hmethod : lowerFunction windingModule 0 =
      .ok ⟨0, { params := [.i32], results := [] }, windingLines⟩ := by
    decide +kernel
  obtain ⟨func, labels, hfunc, hlines, hbalanced, hlabels, -, hjumps⟩ :=
    lowerFunction_wellNested hmethod
  cases hfunc
  have hthree : windingLines.filterMap Line.introduces = (List.range 3).map .numbered := rfl
  obtain rfl : 3 = labels := by simpa using congrArg List.length (hthree.symm.trans hlabels)
  exact ⟨hmethod, hlines, hbalanced, hjumps _ _ (windingLines.drop 8) _ rfl rfl⟩

end WasmAot.Lowering
