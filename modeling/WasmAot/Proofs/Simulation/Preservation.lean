/-
# Lowering preserves meaning

A typed function of integer instructions and the method that it is lowered to do the same on all
arguments: they return the same values or end in the same trap, or both of them go on for ever.
With the same fuel a run of the one is a run of the other, and neither is ever stuck.
-/
import WasmAot.Proofs.Simulation.Bodies

namespace WasmAot.Lowering

open Code Host Semantics Stateful Validation

/-! ### Entering a function -/

/-- The declarations of the locals add zeros to the arguments. -/
lemma straight_declareLocals {values : List Value} {first : Nat} {env : Env}
    (locals : List ValType) (hslots : ∀ index, env (.slot index) = values[index]?)
    (hfirst : values.length = first) (hfresh : Fresh 0 env) :
    ∃ env', Straight (declareLocals first locals) env env' ∧
      (∀ index, env' (.slot index) = (values ++ locals.map Value.zero)[index]?) ∧ Fresh 0 env' := by
  induction locals generalizing values first env with
  | nil => exact ⟨env, .nil env, by simpa using hslots, hfresh⟩
  | cons ty locals ih =>
    have hnone : env (.slot first) = none := by
      rw [hslots, List.getElem?_eq_none (Nat.le_of_eq hfirst)]
    have hslots' : ∀ index, env.set (.slot first) (.zero ty) (.slot index) =
        (values ++ [Value.zero ty])[index]? := by
      intro index
      by_cases hindex : index = first
      · rw [hindex, Env.set_self, ← hfirst, List.getElem?_concat_length]
      · rw [Env.set_of_ne (fun heq => hindex (Name.slot.inj heq)), hslots]
        rcases Nat.lt_or_gt_of_ne hindex with hlt | hgt
        · rw [List.getElem?_append_left (by omega)]
        · rw [List.getElem?_eq_none (by omega),
            List.getElem?_eq_none (by rw [List.length_append, List.length_singleton]; omega)]
    have hfresh' : Fresh 0 (env.set (.slot first) (.zero ty)) := by
      intro k hk
      rw [Env.set_of_ne (by simp), hfresh k hk]
    obtain ⟨env', hrun, hlocals, hfresh''⟩ := ih hslots'
      (show (values ++ [Value.zero ty]).length = first + 1 by
        rw [List.length_append, List.length_singleton, hfirst]) hfresh'
    refine ⟨env', (straight_bind hnone rfl (Value.type_zero ty)).append hrun, ?_, hfresh''⟩
    intro index
    rw [hlocals, List.append_assoc]
    rfl

variable {m : Module} {position : Nat} {func : FuncDef} {type : FuncType} {args : List Value}

lemma grounded_functionStart : Grounded (functionStart func type) where
  targets := by
    intro exit hexit hkind
    cases List.mem_singleton.1 hexit
    exact absurd rfl hkind
  labels := by
    intro exit hexit n hn
    cases List.mem_singleton.1 hexit
    cases hn

/-- After the declarations of the locals the environment is that of the start of the function. -/
lemma exists_rel_functionStart (hargs : args.map Value.type = type.params) :
    ∃ env, Straight (declareLocals type.params.length func.locals) (.ofArgs args) env ∧
      Rel (functionStart func type) (args ++ func.locals.map Value.zero) [] env := by
  have hlen : args.length = type.params.length := by
    rw [← hargs, List.length_map]
  obtain ⟨env, hrun, hslots, hfresh⟩ := @straight_declareLocals args type.params.length (.ofArgs args)
    func.locals (fun _ => rfl) hlen (fun _ _ => rfl)
  refine ⟨env, hrun, hslots, ?_, .nil, hfresh, ?_⟩
  · have hzeros : (func.locals.map Value.zero).map Value.type = func.locals := by
      rw [List.map_map]
      exact (List.map_congr_left fun ty _ => Value.type_zero ty).trans (List.map_id _)
    rw [List.map_append, hargs, hzeros]
    rfl
  · intro exit hexit n hn
    cases List.mem_singleton.1 hexit
    cases hn

/-! ### Runs -/

/-- The line at the end of a body, if the end is reached. -/
def returnLines (b : Builder) : List Line :=
  if b.current.unreachable then [] else [.returnOk (b.current.stack.reverse.map Operand.atom)]

lemma plain_returnLines (b : Builder) : ∀ line ∈ returnLines b, line.plain = true := by
  unfold returnLines
  split
  · simp
  · intro line hline
    rw [List.mem_singleton.1 hline]
    rfl

/-- The lines of a whole body, with the return at its end, end as the body does. -/
lemma Follows.run_eq {b : Builder} {env : Env} {flow : Flow} {control : Control}
    (h : Follows (functionStart func type) b env flow control) (fuel : Nat) :
    (control.andThen (execAll fuel (leaves (returnLines b)))).run = flow.run ∧
      flow.run ≠ .stuck := by
  cases h with
  | @next locals stack env' hreached hrel hkept =>
    have hexec : execAll fuel (leaves (returnLines b)) env' = .returned stack.reverse := by
      rw [returnLines, hreached, if_neg Bool.false_ne_true, execAll_leaf, Line.exec,
        evalAtoms_of_denotes hrel.operands]
    refine ⟨?_, fun h => by cases h⟩
    change (execAll fuel (leaves (returnLines b)) env').run = _
    rw [hexec]
    rfl
  | branch hexit hkind _ =>
    -- there is nothing around the function to branch to
    cases List.mem_singleton.1 (List.mem_of_getElem? hexit)
    exact absurd rfl hkind
  | @ret depth exit locals values hexit hkind =>
    cases depth with
    | zero => exact ⟨rfl, fun h => by cases h⟩
    | succ depth => cases hexit
  | trap t => exact ⟨rfl, fun h => by cases h⟩
  | outOfFuel => exact ⟨rfl, fun h => by cases h⟩

/-- With the same fuel the method and the function are equally far. -/
lemma runMethod_eq_runFunction (hfunc : m.functions[position]? = some func)
    (htype : m.types[func.type]? = some type) (htyped : TypedFunction m func type)
    (hintegral : integralSeq func.body = true) (hargs : args.map Value.type = type.params)
    {method : Method} (hmethod : lowerFunction m position = .ok method) (fuel : Nat) :
    runMethod method args fuel = runFunction m func type args fuel ∧
      runFunction m func type args fuel ≠ .stuck := by
  obtain ⟨func', type', b, hfunc', htype', hrun, rfl⟩ := lowerFunction_eq_ok_iff.1 hmethod
  cases hfunc.symm.trans hfunc'
  cases htype.symm.trans htype'
  obtain ⟨⟨⟩, b₁, hbody, hend⟩ := of_bind_run_ok hrun
  have hlowers : Lowers (.ofFunction m func type) func.body [] type.results :=
    lowers_of_typed htyped (fun hother => by simp [hother] at hintegral) rfl
  have hends := (hlowers _ ready_functionStart).of_ok hbody
  have hpreserves : Preserves (.ofFunction m func type) func.body [] :=
    preserves_of_typed htyped hintegral rfl
  obtain ⟨trees, htrees⟩ := hpreserves _ _ ready_functionStart grounded_functionStart hbody
  obtain ⟨lines, hout, hparses⟩ := htrees.emitted
  -- behind the body comes a line that returns the results, unless the end is not reached
  have hbodyOut : b.out = b₁.out ++ (returnLines b₁).toArray := by
    rw [endFunction_of_ends hends] at hend
    cases hend
    unfold returnLines
    split
    · rw [Array.append_empty]
    · rfl
  have hlines : b.out.toList = declareLocals type.params.length func.locals ++
      (lines ++ returnLines b₁) := by
    rw [hbodyOut, hout]
    simp [functionStart, Builder.start]
  have hdeclare : ∀ line ∈ declareLocals type.params.length func.locals, line.plain = true := by
    intro line hline
    obtain ⟨p, -, rfl⟩ := List.mem_map.1 hline
    rfl
  have hparse := ((Parses.ofLeaves hdeclare).append
    (hparses.append (.ofLeaves (plain_returnLines b₁)))).parse_eq
  obtain ⟨env, hdeclared, hrel⟩ := @exists_rel_functionStart func type args hargs
  simp only [runMethod, hlines, hparse]
  rw [execAll_next (hdeclared fuel), execAll_append]
  exact (htrees.follows fuel _ _ env hrel).run_eq fuel

/-- Lowering preserves meaning.  A typed function of integer instructions becomes a method, unless
its constructs are nested too deeply, and the method ends on all arguments as the function does:
with the same values or in the same trap.  A function that does not end in exactly one way diverges,
and the method diverges exactly if the function does. -/
theorem lowerFunction_preserves_meaning (hfunc : m.functions[position]? = some func)
    (htype : m.types[func.type]? = some type) (htyped : TypedFunction m func type)
    (hintegral : integralSeq func.body = true) (hargs : args.map Value.type = type.params) :
    (nestingOf func.body ≤ maxNesting → ∃ method, lowerFunction m position = .ok method) ∧
      ∀ method, lowerFunction m position = .ok method →
        (∀ outcome, EndsIn (runMethod method args) outcome ↔
          EndsIn (runFunction m func type args) outcome) ∧
        (Diverges (runMethod method args) ↔ Diverges (runFunction m func type args)) ∧
        ((∃! outcome, EndsIn (runFunction m func type args) outcome) ∨
          Diverges (runFunction m func type args)) := by
  refine ⟨fun hnesting => ?_, fun method hmethod => ?_⟩
  · have hlowers : Lowers (.ofFunction m func type) func.body [] type.results :=
      lowers_of_typed htyped (fun hother => by simp [hother] at hintegral) rfl
    exact (exists_method_of_lowers hfunc htype hlowers hnesting).1
  · have hrun := runMethod_eq_runFunction hfunc htype htyped hintegral hargs hmethod
    have heq : runMethod method args = runFunction m func type args :=
      funext fun fuel => (hrun fuel).1
    rw [heq]
    refine ⟨fun _ => Iff.rfl, Iff.rfl, ?_⟩
    by_cases hdiverges : Diverges (runFunction m func type args)
    · exact .inr hdiverges
    · obtain ⟨fuel, hfuel⟩ := not_forall.1 hdiverges
      cases hended : runFunction m func type args fuel with
      | ended outcome =>
        exact .inl ⟨outcome, ⟨fuel, hended⟩, fun _ hother => endsIn_unique hother ⟨fuel, hended⟩⟩
      | outOfFuel => exact absurd hended hfuel
      | stuck => exact absurd hended (hrun fuel).2

/-! A function that adds up the numbers from its argument down to one, in a loop that takes the sum so
far as a parameter. -/

/-- The type of the function, and of the loop in it. -/
def sumType : FuncType := { params := [.i32], results := [.i32] }

/-- `i32.const 0 loop (param i32) (result i32) local.get 0 i32.add local.get 0 i32.const 1 i32.sub
local.tee 0 br_if 0 end`. -/
def sumDown : FuncDef where
  type := 0
  locals := []
  body := [.i32Const 0, .loop (.indexed 0)
    [.localGet 0, .binary .i32 .add, .localGet 0, .i32Const 1, .binary .i32 .sub, .localTee 0,
      .brIf 0]]

/-- The module of this one function. -/
def sumModule : Module := { types := [sumType], functions := [sumDown] }

lemma typed_sumDown : TypedFunction sumModule sumDown sumType := by
  have hi32 : fits (some .i32) .i32 := .inr rfl
  have htwo : Fits [some .i32, some .i32] [.i32, .i32] := .cons hi32 (.cons hi32 .nil)
  refine @Typed.simple _ _ _ [] [] _ _ _ (.i32Const 0) .nil ?_
  refine @Typed.loop _ _ sumType _ _ [] _ _ rfl (.cons hi32 .nil) ?_ (.nil (.cons hi32 .nil))
  refine @Typed.simple _ _ _ [some .i32] [] _ _ _ (.localGet rfl) .nil ?_
  refine @Typed.simple _ _ _ [] _ _ _ _
    (.binary (by simp [Binary.numericInstrs, Binary.intBinary])) htwo ?_
  refine @Typed.simple _ _ _ [some .i32] [] _ _ _ (.localGet rfl) .nil ?_
  refine @Typed.simple _ _ _ [some .i32, some .i32] [] _ _ _ (.i32Const 1) .nil ?_
  refine @Typed.simple _ _ _ [some .i32] _ _ _ _
    (.binary (by simp [Binary.numericInstrs, Binary.intBinary])) htwo ?_
  refine @Typed.simple _ _ _ [some .i32] _ _ _ _ (.localTee rfl) (.cons hi32 .nil) ?_
  refine @Typed.simple _ _ _ [] _ _ _ _ (.brIf rfl) htwo ?_
  exact .nil (.cons hi32 .nil)

theorem lowerFunction_preserves_meaning_sumDown :
    ∃ method, lowerFunction sumModule 0 = .ok method ∧
      EndsIn (runMethod method [.i32 4]) (.returned [.i32 10]) := by
  obtain ⟨hexists, hmeaning⟩ := @lowerFunction_preserves_meaning sumModule 0 sumDown sumType [.i32 4]
    rfl rfl typed_sumDown (by decide) rfl
  obtain ⟨method, hmethod⟩ := hexists (by decide)
  exact ⟨method, hmethod, ((hmeaning method hmethod).1 _).2 ⟨5, by decide⟩⟩

end WasmAot.Lowering
