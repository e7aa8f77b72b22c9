/-
# Valid bodies are lowered

A function whose body is typed is lowered without an error, as long as its constructs are not nested
too deeply and all tables hold functions.  The proof follows the typing derivation: `Ready` says
that the frames of a builder are those of a typing context and its operands those of a stack type,
and every instruction leads from one such builder to another.
-/
import WasmAot.Proofs.Validation.Discipline

namespace WasmAot.Lowering

open Code Stateful Validation

/-- The builder stands in a reachable place with this context and operands of these types. -/
structure Ready (C : Context) (b : Builder) (types : List ValType) : Prop where
  locals : b.locals = C.locals
  labels : b.exits.map (fun exit => exit.target.types) = C.labels
  function : C.labels[b.depth]? = some C.results
  settled : Settled b.enclosing
  reachable : b.current.unreachable = false
  stack : b.current.stack.map Operand.ty = types.reverse

/-- The second builder has the same frames as the first one, but for the operands of the innermost
one and whether its end is reached. -/
structure Keeps (b b' : Builder) : Prop where
  locals : b'.locals = b.locals
  enclosing : b'.enclosing = b.enclosing
  exit : b'.current.exit = b.current.exit
  results : b'.current.results = b.current.results

namespace Keeps

variable {b b' b'' : Builder}

lemma refl (b : Builder) : Keeps b b := ⟨rfl, rfl, rfl, rfl⟩

lemma trans (h : Keeps b b') (h' : Keeps b' b'') : Keeps b b'' :=
  ⟨h'.locals.trans h.locals, h'.enclosing.trans h.enclosing, h'.exit.trans h.exit,
    h'.results.trans h.results⟩

lemma wrote (b : Builder) (stack : List Operand) (vars : Nat) (lines : List Line) :
    Keeps b ((b.withStack stack).wrote vars lines) := ⟨rfl, rfl, rfl, rfl⟩

lemma labelled (b : Builder) (stack : List Operand) (vars : Nat) (lines : List Line) :
    Keeps b ((b.withStack stack).wrote vars lines).labelled := ⟨rfl, rfl, rfl, rfl⟩

lemma exits (h : Keeps b b') : b'.exits = b.exits := by
  simp only [Builder.exits, Builder.frames, List.map_cons, h.exit, h.enclosing]

lemma depth (h : Keeps b b') : b'.depth = b.depth := by
  rw [Builder.depth, h.enclosing, Builder.depth]

end Keeps

section

variable {C : Context} {b b' : Builder} {types types' : List ValType}

/-- A builder with the same frames is ready again, given the types of its operands. -/
lemma Ready.of_keeps (h : Ready C b types) (hkeeps : Keeps b b')
    (hreachable : b'.current.unreachable = false)
    (hstack : b'.current.stack.map Operand.ty = types'.reverse) : Ready C b' types' where
  locals := hkeeps.locals.trans h.locals
  labels := by rw [hkeeps.exits, h.labels]
  function := by rw [hkeeps.depth, h.function]
  settled := by rw [hkeeps.enclosing]; exact h.settled
  reachable := hreachable
  stack := hstack

/-- The way out that a label of the context stands for. -/
lemma Ready.exit (h : Ready C b types) {depth : Nat} {label : List ValType}
    (hlabel : C.labels[depth]? = some label) :
    ∃ exit, b.exits[depth]? = some exit ∧ exit.target.types = label := by
  rw [← h.labels, List.getElem?_map, Option.map_eq_some_iff] at hlabel
  exact hlabel

/-- The operands split as their types do. -/
lemma Ready.split {below above : List ValType} (h : Ready C b (below ++ above)) :
    ∃ top rest, b.current.stack = top ++ rest ∧ top.map Operand.ty = above.reverse ∧
      rest.map Operand.ty = below.reverse := by
  have hstack := h.stack
  rw [List.reverse_append] at hstack
  exact List.map_eq_append_iff.1 hstack

/-- The topmost operand has the last of the types. -/
lemma Ready.split_last {below : List ValType} {ty : ValType} (h : Ready C b (below ++ [ty])) :
    ∃ op rest, b.current.stack = op :: rest ∧ op.ty = ty ∧ rest.map Operand.ty = below.reverse := by
  have hstack := h.stack
  rw [List.reverse_append] at hstack
  exact List.map_eq_cons_iff.1 hstack

/-- The two topmost operands have the last two of the types. -/
lemma Ready.split_two {below : List ValType} {ty ty' : ValType} (h : Ready C b (below ++ [ty, ty'])) :
    ∃ second first rest, b.current.stack = second :: first :: rest ∧ second.ty = ty' ∧
      first.ty = ty ∧ rest.map Operand.ty = below.reverse := by
  rw [List.append_cons below ty [ty']] at h
  obtain ⟨second, below', hstack, hsecond, hbelow⟩ := h.split_last
  rw [List.reverse_append] at hbelow
  obtain ⟨first, rest, rfl, hfirst, hrest⟩ := List.map_eq_cons_iff.1 hbelow
  exact ⟨second, first, rest, hstack, hsecond, hfirst, hrest⟩

/-- The condition of a choice and the operands to choose from. -/
lemma Ready.split_choice {below : List ValType} {ty : ValType}
    (h : Ready C b (below ++ [ty, ty, .i32])) :
    ∃ cond second first rest, b.current.stack = cond :: second :: first :: rest ∧
      cond.ty = .i32 ∧ second.ty = ty ∧ first.ty = ty ∧ rest.map Operand.ty = below.reverse := by
  rw [List.append_cons below ty [ty, .i32]] at h
  obtain ⟨cond, second, below', hstack, hcond, hsecond, hbelow⟩ := h.split_two
  rw [List.reverse_append] at hbelow
  obtain ⟨first, rest, rfl, hfirst, hrest⟩ := List.map_eq_cons_iff.1 hbelow
  exact ⟨cond, second, first, rest, hstack, hcond, hsecond, hfirst, hrest⟩

/-- The operation leads to a builder that is ready with operands of the types, and keeps the frames.
-/
def Leads (C : Context) (x : Build Unit) (b : Builder) (types : List ValType) : Prop :=
  ∃ b', x b = .ok () b' ∧ Keeps b b' ∧ Ready C b' types

lemma Leads.of_wrote {x : Build Unit} {stack : List Operand} {vars : Nat} {lines : List Line}
    (h : Ready C b types) (hrun : x b = .ok () ((b.withStack stack).wrote vars lines))
    (hstack : stack.map Operand.ty = types'.reverse) : Leads C x b types' :=
  ⟨_, hrun, .wrote .., h.of_keeps (.wrote ..) h.reachable hstack⟩

lemma Ready.leads {x : Build Unit} {below before after : List ValType}
    (h : Ready C b (below ++ before))
    (hruns : Runs x (before.reverse ++ below.reverse) (after.reverse ++ below.reverse)) :
    Leads C x b (below ++ after) := by
  obtain ⟨a, stack, vars, lines, hrun, hstack⟩ := hruns b (by rw [h.stack, List.reverse_append])
  exact .of_wrote h hrun (by rw [List.reverse_append]; exact hstack)

end

/-! ### Simple instructions -/

section Simple

variable {C : Context} {b : Builder} {below : List ValType}

lemma getLocal_leads {index : Nat} {ty : ValType} (hlocal : C.locals[index]? = some ty)
    (h : Ready C b below) : Leads C (getLocal index) b (below ++ [ty]) := by
  have hrun := getLocal_run (b := b) (by rw [h.locals]; exact hlocal)
  rw [← Builder.wrote_zero_nil (b.withStack _)] at hrun
  refine .of_wrote h hrun ?_
  rw [List.map_cons, h.stack, List.reverse_append]
  rfl

lemma setLocal_leads {index : Nat} {ty : ValType} (hlocal : C.locals[index]? = some ty)
    (h : Ready C b (below ++ [ty])) : Leads C (do let _ ← setLocal index) b below := by
  obtain ⟨op, rest, hstack, hty, hrest⟩ := h.split_last
  have hrun := setLocal_run (b := b) (by rw [h.locals]; exact hlocal) h.settled hstack hty
  refine .of_wrote h (by rw [bind_run_ok hrun, pure_run]) ?_
  rw [map_ty_settledStack, hrest]

lemma teeLocal_leads {index : Nat} {ty : ValType} (hlocal : C.locals[index]? = some ty)
    (h : Ready C b (below ++ [ty])) : Leads C (teeLocal index) b (below ++ [ty]) := by
  obtain ⟨op, rest, hstack, hty, hrest⟩ := h.split_last
  have hrun := teeLocal_run (b := b) (by rw [h.locals]; exact hlocal) h.settled hstack hty
  refine .of_wrote h hrun ?_
  rw [List.map_cons, map_ty_settledStack, hrest, List.reverse_append]
  rfl

lemma lowerBrIf_leads {depth : Nat} {label : List ValType} (hlabel : C.labels[depth]? = some label)
    (h : Ready C b (below ++ (label ++ [ValType.i32]))) :
    Leads C (lowerBrIf depth) b (below ++ label) := by
  obtain ⟨exit, hexit, rfl⟩ := h.exit hlabel
  obtain ⟨top, rest, hstack, htop, hrest⟩ := h.split
  rw [List.reverse_append] at htop
  obtain ⟨cond, values, rfl, hcond, hvalues⟩ := List.map_eq_cons_iff.1 htop
  have hrun := lowerBrIf_run hexit (by rw [hstack]; rfl) hcond hvalues
  refine .of_wrote h hrun ?_
  rw [List.map_append, hvalues, hrest, List.reverse_append]
  rfl

lemma lowerSelect_leads {annotated : Option ValType} {ty : ValType}
    (hannotated : annotated = none ∨ annotated = some ty)
    (h : Ready C b (below ++ [ty, ty, .i32])) :
    Leads C (lowerSelect annotated) b (below ++ [ty]) := by
  obtain ⟨cond, second, first, rest, hstack, hcond, hsecond, hfirst, hrest⟩ := h.split_choice
  have hexpected : annotated.getD ty = ty := by
    rcases hannotated with rfl | rfl <;> rfl
  refine .of_wrote h (lowerSelect_run hstack hcond hfirst hsecond hexpected) ?_
  rw [List.map_cons, List.reverse_append, ← hrest]
  rfl

/-- A simple instruction leads on as its type says.  Only instructions that are not about integers
can need a table. -/
lemma lowerSimple_leads {instr : Instr} {before after : List ValType}
    (hinstr : Simple C instr before after)
    (htables : instr.integral = false → ∀ type ∈ C.module.tableTypes, type.elem = .funcref)
    (h : Ready C b (below ++ before)) :
    Leads C (lowerSimple C.module instr) b (below ++ after) := by
  have htable : instr.integral = false → ∀ {table : Nat} {type : TableType},
      C.module.tableTypes[table]? = some type →
      C.module.requireFuncTable table = .ok () ∧ type.elem = .funcref := by
    intro hother table type htype
    have helem := htables hother _ (List.mem_of_getElem? htype)
    exact ⟨Module.requireFuncTable_of htype helem, helem⟩
  cases hinstr with
  | nop => exact h.leads (.pure _)
  | brIf hlabel => exact lowerBrIf_leads hlabel h
  | call hfunc htype =>
    obtain ⟨hindex, refers, hrefers⟩ := Module.typeIndexOfFunc_of hfunc
    refine h.leads (.bind_require (Module.typeOfFunc_of hindex htype) <|
      (Runs.popAtoms _).bind fun _ => .bind_require hrefers ?_)
    cases refers with
    | defined => exact .pushResults _ _
    | imported => exact .bindDynamicResults _ _
  | callIndirect htype htab helem =>
    refine h.leads ?_
    rw [List.reverse_append, List.append_assoc]
    exact .bind_require (Module.typeAt_of htype) <| .bind_require (htable rfl htab).1 <|
      (Runs.popAtom _).bind fun _ => (Runs.popAtoms _).bind fun _ => Runs.newVar.bind fun _ =>
      (Runs.emit _).bind fun _ => (Runs.emit _).bind fun _ => .bindDynamicResults _ _
  | refNull href =>
    refine h.leads ?_
    rw [lowerSimple, lowerRefNull, if_pos href]
    exact .result _ _
  | refIsNull href =>
    -- the operand may be of either reference type, so its own type is looked at
    obtain ⟨op, rest, hstack, hty, hrest⟩ := h.split_last
    have hrun : lowerRefIsNull b = result .i32 (.isNull op.atom) (b.withStack rest) := by
      rw [lowerRefIsNull, bind_run_ok (popOperand_run hstack), hty, if_pos href]
    rw [result_run] at hrun
    refine .of_wrote h hrun ?_
    rw [List.map_cons, List.reverse_append, ← hrest]
    rfl
  | refFunc hfunc =>
    obtain ⟨-, refers, hrefers⟩ := Module.typeIndexOfFunc_of hfunc
    refine h.leads (.bind_require hrefers ?_)
    cases refers with
    | defined => exact .result _ _
    | imported => exact .result _ _
  | drop ty => exact h.leads ((Runs.popOperand ty).bind fun _ => .pure _)
  | select hnum => exact lowerSelect_leads (.inl rfl) h
  | selectOf ty => exact lowerSelect_leads (.inr rfl) h
  | localGet hlocal =>
    rw [List.append_nil] at h
    exact getLocal_leads hlocal h
  | localSet hlocal =>
    rw [List.append_nil]
    exact setLocal_leads hlocal h
  | localTee hlocal => exact teeLocal_leads hlocal h
  | globalGet hglobal =>
    exact h.leads (.bind_require (Module.typeOfGlobal_of hglobal) (.result _ _))
  | globalSet hglobal hmutable =>
    refine h.leads (.bind_require (Module.typeOfGlobal_of hglobal) ?_)
    rw [if_pos hmutable]
    exact (Runs.popAtom _).bind fun _ => .emit _
  | tableGet htab =>
    rw [(htable rfl htab).2]
    exact h.leads (.bind_require (htable rfl htab).1 <| (Runs.popAtom _).bind fun _ => .result _ _)
  | tableSet htab =>
    rw [(htable rfl htab).2] at h
    exact h.leads (.bind_require (htable rfl htab).1 <| (Runs.popAtom _).bind fun _ =>
      (Runs.popAtom _).bind fun _ => .emit _)
  | tableInit htab hsegment helem =>
    exact h.leads (.bind_require (htable rfl htab).1 <|
      .bind_require (Module.requireElemSegment_of hsegment) <|
      Runs.popThree.bind fun _ => .emit _)
  | elemDrop hsegment =>
    exact h.leads (.bind_require (Module.requireElemSegment_of hsegment) (.emit _))
  | @tableCopy dst src _ _ hdst hsrc helem =>
    refine h.leads (.bind_require (htable rfl hdst).1 <| .bind_require (htable rfl hsrc).1 <|
      Runs.popThree.bind fun operands => ?_)
    obtain ⟨dstAt, srcAt, len⟩ := operands
    dsimp only
    by_cases hsame : dst = src
    · rw [if_pos hsame]
      exact .emit _
    · rw [if_neg hsame]
      exact (Runs.emit _).bind fun _ => (Runs.emit _).bind fun _ => (Runs.emit _).bind fun _ =>
        (Runs.emit _).bind fun _ => .emit _
  | tableGrow htab =>
    rw [(htable rfl htab).2] at h
    exact h.leads (.bind_require (htable rfl htab).1 <| (Runs.popAtom _).bind fun _ =>
      (Runs.popAtom _).bind fun _ => .result _ _)
  | tableSize htab => exact h.leads (.bind_require (htable rfl htab).1 (.result _ _))
  | tableFill htab =>
    rw [(htable rfl htab).2] at h
    exact h.leads (.bind_require (htable rfl htab).1 <| (Runs.popAtom _).bind fun _ =>
      (Runs.popAtom _).bind fun _ => (Runs.popAtom _).bind fun _ => .emit _)
  | load op arg hmemory =>
    exact h.leads (.bind_require (Module.requireMemory_of hmemory) <|
      (Runs.popAtom _).bind fun _ => .result _ _)
  | store op arg hmemory =>
    exact h.leads (.bind_require (Module.requireMemory_of hmemory) <|
      (Runs.popAtom _).bind fun _ => (Runs.popAtom _).bind fun _ => .emit _)
  | memorySize hmemory =>
    exact h.leads (.bind_require (Module.requireMemory_of hmemory) (.result _ _))
  | memoryGrow hmemory =>
    exact h.leads (.bind_require (Module.requireMemory_of hmemory) <|
      (Runs.popAtom _).bind fun _ => .result _ _)
  | memoryInit hmemory hsegment =>
    exact h.leads (.bind_require (Module.requireMemory_of hmemory) <|
      .bind_require (Module.requireDataSegment_of hsegment) <|
      Runs.popThree.bind fun _ => .emit _)
  | dataDrop hsegment =>
    exact h.leads (.bind_require (Module.requireDataSegment_of hsegment) (.emit _))
  | memoryCopy hmemory | memoryFill hmemory =>
    exact h.leads (.bind_require (Module.requireMemory_of hmemory) <|
      Runs.popThree.bind fun _ => .emit _)
  | i32Const | i64Const | f32Const | f64Const => exact h.leads (.pushOperand _)
  | compare hopcode =>
    exact h.leads ((Runs.popAtom _).bind fun _ => (Runs.popAtom _).bind fun _ =>
      .bind_require (if_pos (operatorDefined_of_mem hopcode)) (.result _ _))
  | eqz hopcode =>
    exact h.leads ((Runs.popAtom _).bind fun _ =>
      .bind_require (if_pos (operatorDefined_of_mem hopcode)) (.result _ _))
  | @unary ty op hopcode hop =>
    have hresult : op.resultType ty = ty := by
      cases op <;> first | rfl | exact absurd rfl hop
    refine h.leads ((Runs.popAtom _).bind fun _ =>
      .bind_require (if_pos (operatorDefined_of_mem hopcode)) ?_)
    rw [hresult]
    exact .result _ _
  | binary hopcode =>
    exact h.leads ((Runs.popAtom _).bind fun _ => (Runs.popAtom _).bind fun _ =>
      .bind_require (if_pos (operatorDefined_of_mem hopcode)) (.result _ _))
  | convert op =>
    rw [conversion_eq] at h ⊢
    exact h.leads ((Runs.popAtom _).bind fun _ => .result _ _)

end Simple

/-! ### Transfers -/

section Transfer

variable {C : Context} {b : Builder} {types : List ValType}

/-- After a transfer the builder has the same frames, and stands where nothing is reached. -/
def Leaves (x : Build Unit) (b : Builder) : Prop :=
  ∃ b', x b = .ok () b' ∧ Keeps b b' ∧ b'.current.unreachable = true

lemma lowerBr_leaves {below label : List ValType} {depth : Nat}
    (hlabel : C.labels[depth]? = some label) (h : Ready C b (below ++ label)) :
    Leaves (lowerBr depth) b := by
  obtain ⟨exit, hexit, rfl⟩ := h.exit hlabel
  obtain ⟨top, rest, hstack, htop, -⟩ := h.split
  exact ⟨_, lowerBr_run hexit hstack htop, ⟨rfl, rfl, rfl, rfl⟩, rfl⟩

lemma lowerBrTable_leaves {below label : List ValType} {targets : List Nat} {default : Nat}
    (htargets : ∀ depth ∈ default :: targets, C.labels[depth]? = some label)
    (h : Ready C b (below ++ (label ++ [ValType.i32]))) :
    Leaves (lowerBrTable targets default) b := by
  obtain ⟨exit, hexit, rfl⟩ := h.exit (htargets default List.mem_cons_self)
  have hothers : ∀ depth ∈ targets, ∃ e, b.exits[depth]? = some e ∧
      e.target.types = exit.target.types :=
    fun depth hdepth => h.exit (htargets depth (List.mem_cons_of_mem _ hdepth))
  obtain ⟨top, rest, hstack, htop, -⟩ := h.split
  rw [List.reverse_append] at htop
  obtain ⟨selector, values, rfl, hselector, hvalues⟩ := List.map_eq_cons_iff.1 htop
  exact ⟨_, lowerBrTable_run hexit hothers hstack hselector hvalues, ⟨rfl, rfl, rfl, rfl⟩, rfl⟩

/-- A transfer that takes operands of known types leaves the sequence. -/
lemma lowerSimple_leaves {instr : Instr} {below given : List ValType}
    (hinstr : Transfer C instr (given.map some)) (h : Ready C b (below ++ given)) :
    Leaves (lowerSimple C.module instr) b := by
  generalize hoperands : given.map some = operands at hinstr
  cases hinstr with
  | unreachable => exact ⟨_, rfl, ⟨rfl, rfl, rfl, rfl⟩, rfl⟩
  | br hlabel hgiven =>
    subst hoperands
    rw [fits_map_some hgiven] at hlabel
    exact lowerBr_leaves hlabel h
  | brTable hselector htargets =>
    -- all operands are of known types, so the last one, the number, is an `i32`
    obtain ⟨label, selector', rfl, rfl, hlast⟩ := List.map_eq_append_iff.1 hoperands
    obtain ⟨ty, rfl, rfl⟩ := List.map_eq_singleton_iff.1 hlast
    cases fits_some hselector
    exact lowerBrTable_leaves (labels_of_fits htargets) h
  | ret hgiven =>
    subst hoperands
    have hresults := fits_map_some hgiven
    have hlabel := h.function
    rw [hresults] at hlabel
    exact lowerBr_leaves hlabel h

end Transfer

/-! ### Sequences and constructs -/

/-- The operation leads to a builder with the property, or it fails because constructs are nested
too deeply, which happens only if `deep` holds. -/
def Succeeds (deep : Prop) (x : Build Unit) (b : Builder) (P : Builder → Prop) : Prop :=
  (∃ b', x b = .ok () b' ∧ P b') ∨
    deep ∧ ∃ b', x b = .error (.validation .nestedTooDeeply) b'

lemma Succeeds.of_run {deep : Prop} {α : Type} {x : Build α} {f : α → Build Unit} {a : α}
    {b b' : Builder} {P : Builder → Prop} (hrun : x b = .ok a b') (h : Succeeds deep (f a) b' P) :
    Succeeds deep (x >>= f) b P := by
  rw [Succeeds, bind_run_ok hrun]
  exact h

lemma Succeeds.mono {deep deep' : Prop} {x : Build Unit} {b : Builder} {P : Builder → Prop}
    (h : Succeeds deep x b P) (hdeep : deep → deep') : Succeeds deep' x b P :=
  h.imp_right (And.imp_left hdeep)

lemma Succeeds.imp {deep : Prop} {x : Build Unit} {b : Builder} {P Q : Builder → Prop}
    (h : Succeeds deep x b P) (hP : ∀ b', P b' → Q b') : Succeeds deep x b Q :=
  h.imp_left fun ⟨b', hrun, hb'⟩ => ⟨b', hrun, hP b' hb'⟩

/-- An operation that has succeeded has led to a builder with the property. -/
lemma Succeeds.of_ok {deep : Prop} {x : Build Unit} {b b' : Builder} {P : Builder → Prop}
    (h : Succeeds deep x b P) (hrun : x b = .ok () b') : P b' := by
  rcases h with ⟨b₁, hrun₁, hP⟩ | ⟨-, b₁, hrun₁⟩
  · cases hrun₁.symm.trans hrun
    exact hP
  · cases hrun₁.symm.trans hrun

lemma Succeeds.bind {deep deep' : Prop} {x : Build Unit} {f : Unit → Build Unit} {b : Builder}
    {P Q : Builder → Prop} (hx : Succeeds deep x b P) (hdeep : deep → deep')
    (hf : ∀ b', P b' → Succeeds deep' (f ()) b' Q) : Succeeds deep' (x >>= f) b Q := by
  rcases hx with ⟨b', hrun, hP⟩ | ⟨hd, b', hrun⟩
  · exact .of_run hrun (hf b' hP)
  · exact Or.inr ⟨hdeep hd, b', by rw [bind_run, hrun]⟩

/-- The builder at the end of a sequence: the frames are the same, the end is reached unless one of
the instructions is a transfer, and then the operands have the types. -/
structure Ends (body : List Instr) (b : Builder) (types : List ValType) (b' : Builder) : Prop where
  keeps : Keeps b b'
  unreachable : b'.current.unreachable = body.any Instr.isTransfer
  stack : b'.current.unreachable = false → b'.current.stack.map Operand.ty = types.reverse

/-- Lowering the sequence from operands of the types `given` ends in operands of the types `types`.
-/
def Lowers (C : Context) (body : List Instr) (given types : List ValType) : Prop :=
  ∀ b, Ready C b given → Succeeds (maxNesting < b.depth + nestingOf body)
    (lowerSeq C.module body) b (Ends body b types)

/-- The body of a construct has been lowered between two builders. -/
structure Inner (C : Context) (body : List Instr) (types : List ValType) (b b' : Builder) : Prop where
  run : lowerSeq C.module body b = .ok () b'
  ends : Ends body b types b'

/-- The operands of a builder, with all reads of locals bound, are the parameters `top` of a
construct and what stays outside of it. -/
structure Splits (b : Builder) (params below : List ValType) (top rest : List Operand) : Prop where
  stack : b.settled = top ++ rest
  top : top.map Operand.ty = params.reverse
  rest : rest.map Operand.ty = below.reverse

/-- A block has been lowered: its body in a frame of its own, then a closing line. -/
def BlockLowered (C : Context) (body : List Instr) (sig : FuncType) (below : List ValType)
    (b b' : Builder) : Prop :=
  ∃ top rest b₂, Splits b sig.params below top rest ∧
    Inner (C.inside sig.results) body sig.results (b.blockStart sig top rest) b₂ ∧
    b' = b₂.resume { b.current with stack := rest } b.enclosing (b.nextVar + b.settling.length)
      sig.results (fallLines b₂.current ++ [.close])

/-- A loop has been lowered. -/
def LoopLowered (C : Context) (body : List Instr) (sig : FuncType) (below : List ValType)
    (b b' : Builder) : Prop :=
  ∃ top rest b₂, Splits b sig.params below top rest ∧
    Inner (C.inside sig.params) body sig.results (b.loopStart sig top rest) b₂ ∧
    b' = b₂.resume { b.current with stack := rest } b.enclosing (b.nextVar + b.settling.length)
      sig.results (fallLines b₂.current ++ [.close])

/-- A conditional has been lowered: its first arm, and its second one if that is needed. -/
def IfLowered (C : Context) (thenBody elseBody : List Instr) (sig : FuncType)
    (below : List ValType) (b b' : Builder) : Prop :=
  ∃ cond operands top rest b₂ b₃, b.current.stack = cond :: operands ∧ cond.ty = .i32 ∧
    Splits (b.withStack operands) sig.params below top rest ∧
    Inner (C.inside sig.results) thenBody sig.results
      ((b.withStack operands).thenStart cond.atom sig top rest) b₂ ∧
    (if needsElse elseBody ((b.withStack operands).newTarget sig.results) then
      Inner (C.inside sig.results) elseBody sig.results
        ((b.withStack operands).elseStart b₂ sig top rest) b₃
    else b₃ = b₂) ∧
    b' = b₃.resume { b.current with stack := rest } b.enclosing
      (b.nextVar + (b.withStack operands).settling.length) sig.results
      (fallLines b₃.current ++ [.close, .close])

section Constructs

variable {C : Context} {b b₀ b' : Builder} {below given types : List ValType}
  {sig : FuncType} {ty : BlockType} {top rest : List Operand}

lemma Ready.splits {above : List ValType} (h : Ready C b (below ++ above)) :
    ∃ top rest, Splits b above below top rest := by
  have hstack : b.settled.map Operand.ty = above.reverse ++ below.reverse := by
    rw [Builder.settled, map_ty_settledStack, h.stack, List.reverse_append]
  obtain ⟨top, rest, heq, htop, hrest⟩ := List.map_eq_append_iff.1 hstack
  exact ⟨top, rest, heq, htop, hrest⟩

lemma Splits.reads {params : List ValType} (h : Splits b params below top rest) :
    ∀ op ∈ rest, op.reads = none :=
  fun op hop => reads_settledStack_all op (h.stack ▸ List.mem_append_right _ hop)

lemma Lowers.inner {body : List Instr} (h : Lowers C body given types) (hready : Ready C b given) :
    Succeeds (maxNesting < b.depth + nestingOf body) (lowerSeq C.module body) b
      (Inner C body types b) :=
  (h b hready).imp_left fun ⟨b', hrun, hends⟩ => ⟨b', hrun, hrun, hends⟩

/-- The builder inside of a construct is ready for the body. -/
lemma Ready.inside (h : Ready C b types) (hkeeps : Keeps b b₀)
    (hsettled : ∀ op ∈ b₀.current.stack, op.reads = none) {frame : Frame} {label : List ValType}
    (hlabel : frame.branch.types = label) (hreachable : frame.unreachable = false)
    (hstack : frame.stack.map Operand.ty = given.reverse) :
    Ready (C.inside label) (b₀.inside frame) given where
  locals := hkeeps.locals.trans h.locals
  labels := by
    rw [exits_inside, List.map_cons, hkeeps.exits, h.labels, ← hlabel]
    rfl
  function := by
    -- seen from inside, the function is one label further out
    have hdepth : (b₀.inside frame).depth = b.depth + 1 := by rw [← hkeeps.depth]; rfl
    rw [hdepth]
    exact h.function
  settled := by
    intro f hf
    rcases List.mem_cons.1 hf with rfl | hf
    · exact hsettled
    · rw [hkeeps.enclosing] at hf
      exact h.settled f hf
  reachable := hreachable
  stack := hstack

lemma Ready.blockStart (h : Ready C b types) (hsplit : Splits b sig.params below top rest) :
    Ready (C.inside sig.results) (b.blockStart sig top rest) sig.params :=
  h.inside (.labelled b rest _ _) hsplit.reads rfl rfl hsplit.top

lemma Ready.loopStart (h : Ready C b types) (hsplit : Splits b sig.params below top rest) :
    Ready (C.inside sig.params) (b.loopStart sig top rest) sig.params :=
  h.inside (.labelled b rest _ _) hsplit.reads rfl rfl (by rw [List.map_reverse, map_ty_freshOperands])

lemma Ready.thenStart (h : Ready C b types) (hsplit : Splits b sig.params below top rest)
    (cond : Atom) : Ready (C.inside sig.results) (b.thenStart cond sig top rest) sig.params :=
  h.inside (.labelled b rest _ _) hsplit.reads rfl rfl hsplit.top

lemma Ready.elseStart (h : Ready C b types) (hsplit : Splits b sig.params below top rest)
    (hlocals : b'.locals = b.locals) :
    Ready (C.inside sig.results) (b.elseStart b' sig top rest) sig.params := by
  have hkeeps : Keeps b ((b'.withFrames { b.current with stack := rest } b.enclosing).wrote 0
      (fallLines b'.current ++ [Line.openElse])) := ⟨hlocals, rfl, rfl, rfl⟩
  exact h.inside hkeeps hsplit.reads rfl rfl hsplit.top

/-- At the end of a construct its results lie on the operands around it. -/
lemma Ready.resume (h : Ready C b given) (hrest : rest.map Operand.ty = below.reverse)
    (hlocals : b'.locals = b.locals) (n : Nat) (types : List ValType) (lines : List Line) :
    Keeps b (b'.resume { b.current with stack := rest } b.enclosing n types lines) ∧
      Ready C (b'.resume { b.current with stack := rest } b.enclosing n types lines)
        (below ++ types) := by
  have hkeeps : Keeps b (b'.resume { b.current with stack := rest } b.enclosing n types lines) :=
    ⟨hlocals, rfl, rfl, rfl⟩
  refine ⟨hkeeps, h.of_keeps hkeeps h.reachable ?_⟩
  rw [List.reverse_append, ← hrest]
  simp only [Builder.resume, Builder.withFrames, Builder.wrote_current, List.map_append,
    List.map_reverse, map_ty_freshOperands]

/-- The end of the body of a construct finishes the frame of the construct. -/
lemma Ends.finished {body : List Instr} {frame : Frame}
    (h : Ends body (b.inside frame) frame.results.types b') : b'.current.Finished := by
  intro hreached
  rw [h.keeps.results]
  exact h.stack hreached

lemma lowerBlock_succeeds {body : List Instr} (h : Ready C b (below ++ sig.params))
    (hsig : C.module.signature? ty = some sig)
    (hbody : Lowers (C.inside sig.results) body sig.params sig.results) :
    Succeeds (maxNesting < b.depth + (1 + nestingOf body)) (lowerInstr C.module (.block ty body)) b
      (BlockLowered C body sig below b) := by
  rw [lowerInstr]
  by_cases hdepth : b.depth < maxNesting
  · obtain ⟨top, rest, hsplit⟩ := h.splits
    refine .of_run (openBlock_run hdepth (Module.signatureOf_of hsig) h.settled hsplit.stack
      hsplit.top) ?_
    refine .bind (hbody.inner (h.blockStart hsplit)) ?_ ?_
    · intro hdeep
      rw [← Nat.add_assoc]
      exact hdeep
    · intro b₂ hinner
      exact Or.inl ⟨_, endConstruct_run hinner.ends.finished hinner.ends.keeps.enclosing 1 _ _,
        top, rest, b₂, hsplit, hinner, rfl⟩
  · refine Or.inr ⟨by omega, b, ?_⟩
    rw [bind_run, openBlock_deep (Nat.le_of_not_lt hdepth)]

lemma lowerLoop_succeeds {body : List Instr} (h : Ready C b (below ++ sig.params))
    (hsig : C.module.signature? ty = some sig)
    (hbody : Lowers (C.inside sig.params) body sig.params sig.results) :
    Succeeds (maxNesting < b.depth + (1 + nestingOf body)) (lowerInstr C.module (.loop ty body)) b
      (LoopLowered C body sig below b) := by
  rw [lowerInstr]
  by_cases hdepth : b.depth < maxNesting
  · obtain ⟨top, rest, hsplit⟩ := h.splits
    refine .of_run (openLoop_run hdepth (Module.signatureOf_of hsig) h.settled hsplit.stack
      hsplit.top) ?_
    refine .bind (hbody.inner (h.loopStart hsplit)) ?_ ?_
    · intro hdeep
      rw [← Nat.add_assoc]
      exact hdeep
    · intro b₂ hinner
      exact Or.inl ⟨_, endConstruct_run hinner.ends.finished hinner.ends.keeps.enclosing 1 _ _,
        top, rest, b₂, hsplit, hinner, rfl⟩
  · refine Or.inr ⟨by omega, b, ?_⟩
    rw [bind_run, openLoop_deep (Nat.le_of_not_lt hdepth)]

lemma lowerIf_succeeds {thenBody elseBody : List Instr}
    (h : Ready C b (below ++ sig.params ++ [ValType.i32]))
    (hsig : C.module.signature? ty = some sig)
    (hthen : Lowers (C.inside sig.results) thenBody sig.params sig.results)
    (helse : Lowers (C.inside sig.results) elseBody sig.params sig.results)
    (hmissing : elseBody = [] → sig.params = sig.results) :
    Succeeds (maxNesting < b.depth + (1 + max (nestingOf thenBody) (nestingOf elseBody)))
      (lowerInstr C.module (.ifElse ty thenBody elseBody)) b
      (IfLowered C thenBody elseBody sig below b) := by
  rw [lowerInstr]
  by_cases hdepth : b.depth < maxNesting
  · obtain ⟨cond, operands, hcond, hcondType, hoperands⟩ := h.split_last
    have hready : Ready C (b.withStack operands) (below ++ sig.params) :=
      h.of_keeps ⟨rfl, rfl, rfl, rfl⟩ h.reachable hoperands
    obtain ⟨top, rest, hsplit⟩ := hready.splits
    have hhas : (!elseBody.isEmpty) = false → sig.params = sig.results := by
      intro hempty
      exact hmissing (by simpa using hempty)
    refine .of_run (openIf_run hdepth (Module.signatureOf_of hsig) h.settled hhas hcond hcondType
      hsplit.stack hsplit.top) ?_
    refine .bind (hthen.inner (hready.thenStart hsplit cond.atom)) ?_ ?_
    · intro hdeep
      change maxNesting < b.depth + 1 + nestingOf thenBody at hdeep
      omega
    · intro b₂ hinner
      refine .of_run (endThen_run hinner.ends.finished hinner.ends.keeps.enclosing) ?_
      have hlocals : b₂.locals = b.locals := hinner.ends.keeps.locals
      dsimp only
      -- whether a second arm is written depends on the results as well
      cases hneeds : needsElse elseBody ((b.withStack operands).newTarget sig.results) with
      | true =>
        refine .of_run (openElse_run _) ?_
        rw [List.reverse_reverse, Builder.wrote_wrote]
        refine .bind (helse.inner (hready.elseStart hsplit hlocals)) ?_ ?_
        · intro hdeep
          change maxNesting < b.depth + 1 + nestingOf elseBody at hdeep
          omega
        · intro b₃ hinner'
          refine Or.inl ⟨_, endConstruct_run hinner'.ends.finished hinner'.ends.keeps.enclosing 2 _ _,
            cond, operands, top, rest, b₂, b₃, hcond, hcondType, hsplit, hinner, ?_, rfl⟩
          rw [hneeds]
          exact hinner'
      | false =>
        refine Or.inl ⟨_, endConstruct_left_run _ _ 2 _ _ _,
          cond, operands, top, rest, b₂, b₂, hcond, hcondType, hsplit, hinner, ?_, rfl⟩
        rw [hneeds]
        rfl
  · refine Or.inr ⟨by omega, b, ?_⟩
    rw [bind_run, openIf_deep (Nat.le_of_not_lt hdepth)]

lemma BlockLowered.ready {body : List Instr} (h : Ready C b given)
    (hlowered : BlockLowered C body sig below b b') :
    Keeps b b' ∧ Ready C b' (below ++ sig.results) := by
  obtain ⟨top, rest, b₂, hsplit, hinner, rfl⟩ := hlowered
  exact h.resume hsplit.rest hinner.ends.keeps.locals _ _ _

lemma LoopLowered.ready {body : List Instr} (h : Ready C b given)
    (hlowered : LoopLowered C body sig below b b') :
    Keeps b b' ∧ Ready C b' (below ++ sig.results) := by
  obtain ⟨top, rest, b₂, hsplit, hinner, rfl⟩ := hlowered
  exact h.resume hsplit.rest hinner.ends.keeps.locals _ _ _

lemma IfLowered.ready {thenBody elseBody : List Instr} (h : Ready C b given)
    (hlowered : IfLowered C thenBody elseBody sig below b b') :
    Keeps b b' ∧ Ready C b' (below ++ sig.results) := by
  obtain ⟨cond, operands, top, rest, b₂, b₃, -, -, hsplit, hinner, harm, rfl⟩ := hlowered
  have hlocals : b₃.locals = b.locals := by
    split at harm
    · exact harm.ends.keeps.locals.trans hinner.ends.keeps.locals
    · rw [harm]
      exact hinner.ends.keeps.locals
  exact h.resume hsplit.rest hlocals _ _ _

end Constructs

/-! ### Whole bodies -/

/-- A simple instruction owns no others and is no transfer. -/
lemma lowerInstr_of_simple {C : Context} {instr : Instr} {before after : List ValType}
    (h : Simple C instr before after) :
    lowerInstr C.module instr = lowerSimple C.module instr ∧ instr.isTransfer = false := by
  cases h <;> exact ⟨by simp only [lowerInstr], rfl⟩

lemma lowerInstr_of_transfer {C : Context} {instr : Instr} {given : List (Option ValType)}
    (h : Transfer C instr given) :
    lowerInstr C.module instr = lowerSimple C.module instr ∧ instr.isTransfer = true := by
  cases h <;> exact ⟨by simp only [lowerInstr], rfl⟩

/-- One instruction that is no transfer, followed by the rest of its sequence. -/
lemma lowers_cons {C : Context} {instr : Instr} {rest : List Instr} {given mid types : List ValType}
    (htransfer : instr.isTransfer = false)
    (hinstr : ∀ b, Ready C b given → Succeeds (maxNesting < b.depth + instr.nesting)
      (lowerInstr C.module instr) b fun b' => Keeps b b' ∧ Ready C b' mid)
    (hrest : Lowers C rest mid types) : Lowers C (instr :: rest) given types := by
  intro b h
  rw [Succeeds, lowerSeq_cons h.reachable]
  refine Succeeds.bind (hinstr b h) ?_ ?_
  · rw [nestingOf]
    omega
  · rintro b' ⟨hkeeps, hready⟩
    refine ((hrest b' hready).mono ?_).imp ?_
    · rw [hkeeps.depth, nestingOf]
      omega
    · intro b'' hends
      refine ⟨hkeeps.trans hends.keeps, ?_, hends.stack⟩
      rw [hends.unreachable, List.any_cons, htransfer, Bool.false_or]

/-- A typed sequence can be lowered from any builder with operands of the types that it takes. -/
theorem lowers_of_typed {C : Context} {body : List Instr} {operands : List (Option ValType)}
    {types : List ValType} (h : Typed C body operands types)
    (htables : integralSeq body = false → ∀ type ∈ C.module.tableTypes, type.elem = .funcref)
    {given : List ValType} (hgiven : operands = given.map some) : Lowers C body given types := by
  induction h generalizing given with
  | nil hfits =>
    subst hgiven
    intro b h
    rw [fits_map_some hfits]
    exact Or.inl ⟨b, by rw [lowerSeq, pure_run], .refl b, h.reachable, fun _ => h.stack⟩
  | simple hinstr hfits _ ih =>
    obtain ⟨below, before, rfl, rfl, rfl⟩ := List.map_eq_append_iff.1 hgiven.symm
    cases fits_map_some hfits
    obtain ⟨hlower, htransfer⟩ := lowerInstr_of_simple hinstr
    refine lowers_cons htransfer (fun b h => ?_)
      (ih (fun hother => htables (integralSeq_rest hother)) List.map_append.symm)
    rw [hlower]
    exact Or.inl (lowerSimple_leads hinstr (fun hother => htables (integralSeq_head hother)) h)
  | selectUnknown hcond _ ih =>
    -- where the sequence is reached, no operand is of unknown type
    obtain ⟨below, top, rfl, rfl, htop⟩ := List.map_eq_append_iff.1 hgiven.symm
    obtain ⟨ty, rest, -, hty, -⟩ := List.map_eq_cons_iff.1 htop
    cases hty
  | transfer hinstr anything _ ih =>
    obtain ⟨below, taken, rfl, rfl, rfl⟩ := List.map_eq_append_iff.1 hgiven.symm
    obtain ⟨hlower, htransfer⟩ := lowerInstr_of_transfer hinstr
    -- the rest of the sequence is typed, but it is not lowered
    intro b h
    obtain ⟨b', hrun, hkeeps, hleft⟩ := lowerSimple_leaves hinstr h
    refine Or.inl ⟨b', ?_, hkeeps, ?_, fun hreached => ?_⟩
    · rw [lowerSeq_cons h.reachable, hlower, bind_run_ok hrun, lowerSeq_unreached hleft]
    · rw [hleft, List.any_cons, htransfer, Bool.true_or]
    · rw [hleft] at hreached
      cases hreached
  | block hsig hfits _ _ ihbody ih =>
    obtain ⟨below, params, rfl, rfl, rfl⟩ := List.map_eq_append_iff.1 hgiven.symm
    cases fits_map_some hfits
    refine lowers_cons rfl (fun b h => ?_)
      (ih (fun hother => htables (integralSeq_rest hother)) List.map_append.symm)
    have hbody := ihbody (fun hother => htables (integralSeq_head hother)) rfl
    exact (lowerBlock_succeeds h hsig hbody).imp fun _ hb => hb.ready h
  | loop hsig hfits _ _ ihbody ih =>
    obtain ⟨below, params, rfl, rfl, rfl⟩ := List.map_eq_append_iff.1 hgiven.symm
    cases fits_map_some hfits
    refine lowers_cons rfl (fun b h => ?_)
      (ih (fun hother => htables (integralSeq_rest hother)) List.map_append.symm)
    have hbody := ihbody (fun hother => htables (integralSeq_head hother)) rfl
    exact (lowerLoop_succeeds h hsig hbody).imp fun _ hb => hb.ready h
  | ifElse hsig hfits hcond _ helse _ ihthen ihelse ih =>
    obtain ⟨operands, cond, rfl, hoperands, hlast⟩ := List.map_eq_append_iff.1 hgiven.symm
    obtain ⟨below, params, rfl, rfl, rfl⟩ := List.map_eq_append_iff.1 hoperands
    cases fits_map_some hfits
    obtain ⟨ty, rfl, rfl⟩ := List.map_eq_singleton_iff.1 hlast
    cases fits_some hcond
    refine lowers_cons rfl (fun b h => ?_)
      (ih (fun hother => htables (integralSeq_rest hother)) List.map_append.symm)
    have hthen := ihthen (fun hother => htables (integralSeq_head (by
      rw [Instr.integral, hother, Bool.false_and]))) rfl
    have helse' := ihelse (fun hother => htables (integralSeq_head (by
      rw [Instr.integral, hother, Bool.and_false]))) rfl
    refine (lowerIf_succeeds h hsig hthen helse' ?_).imp fun _ hb => hb.ready h
    -- an empty second arm hands its parameters on as results
    rintro rfl
    exact (eq_of_typed_nil helse).symm

section Function

variable {m : Module} {position : Nat} {func : FuncDef} {type : FuncType}

/-- Before the first instruction of a function the builder is ready in the context of the function.
-/
lemma ready_functionStart :
    Ready (.ofFunction m func type) (functionStart func type) [] where
  locals := rfl
  labels := rfl
  function := rfl
  settled := by
    intro frame hframe
    cases hframe
  reachable := rfl
  stack := rfl

/-- At the end of a typed body its operands are returned, if the end is reached. -/
lemma endFunction_of_ends {b : Builder}
    (h : Ends func.body (functionStart func type) type.results b) :
    endFunction b = .ok () (if b.current.unreachable then b
      else (b.withStack []).wrote 0 [.returnOk (b.current.stack.reverse.map Operand.atom)]) := by
  have hexits : b.exits = [⟨.function, .body, ⟨[], type.results⟩⟩] := h.keeps.exits
  have hdepth : b.depth = 0 := h.keeps.depth
  have hresults : b.current.results.types = type.results := by
    rw [h.keeps.results]
    rfl
  have hexit : b.exits[b.depth]? = some ⟨.function, .body, ⟨[], type.results⟩⟩ := by
    rw [hexits, hdepth]
    rfl
  refine endFunction_run hexit hresults.symm fun hreached => ?_
  rw [hresults, h.stack hreached]

/-- A function whose body can be lowered is lowered, if its constructs are not nested too deeply. -/
lemma exists_method_of_lowers (hfunc : m.functions[position]? = some func)
    (htype : m.types[func.type]? = some type)
    (hlowers : Lowers (.ofFunction m func type) func.body [] type.results)
    (hnesting : nestingOf func.body ≤ maxNesting) :
    (∃ method, lowerFunction m position = .ok method) ∧
      ∃ b, lowerSeq m func.body (functionStart func type) = .ok () b ∧
        Ends func.body (functionStart func type) type.results b := by
  rcases hlowers _ ready_functionStart with ⟨b, hrun, hends⟩ | ⟨hdeep, -⟩
  · have hbuild : (do lowerSeq m func.body; endFunction) (functionStart func type) = _ :=
      (bind_run_ok hrun).trans (endFunction_of_ends hends)
    exact ⟨⟨_, lowerFunction_eq_ok_iff.2 ⟨func, type, _, hfunc, htype, hbuild, rfl⟩⟩, b, hrun, hends⟩
  · change maxNesting < 0 + nestingOf func.body at hdeep
    omega

/-- A function whose body is typed is lowered without an error.  When the end of the body is
reached, that is when none of its instructions is a transfer, the operands in the frame of the
function have exactly the types of the results. -/
theorem lowerFunction_of_typed (htables : ∀ table ∈ m.tableTypes, table.elem = .funcref)
    (hfunc : m.functions[position]? = some func) (htype : m.types[func.type]? = some type)
    (htyped : TypedFunction m func type) (hnesting : nestingOf func.body ≤ maxNesting) :
    (∃ method, lowerFunction m position = .ok method) ∧
      ∃ b, lowerBody m func.body (functionStart func type) = .ok () b ∧ b.enclosing = [] ∧
        b.current.unreachable = func.body.any Instr.isTransfer ∧
        (b.current.unreachable = false →
          b.current.stack.reverse.map Operand.ty = type.results) := by
  obtain ⟨hmethod, b, hrun, hends⟩ :=
    exists_method_of_lowers hfunc htype (lowers_of_typed htyped (fun _ => htables) rfl) hnesting
  refine ⟨hmethod, b, ?_, hends.keeps.enclosing, hends.unreachable, fun hreached => ?_⟩
  · rw [lowerBody_eq_lowerSeq]
    exact hrun
  · rw [List.map_reverse, hends.stack hreached, List.reverse_reverse]

end Function

/-! A function that leaves a block early on a condition, with code behind its last branch that is
never reached and that takes operands of unknown type. -/

/-- The type of a function that chooses between a number and its argument. -/
def chooseType : FuncType := { params := [.i32, .i32], results := [.i32] }

/-- `block (result i32) local.get 0 local.get 1 br_if 0 drop i32.const 7 br 0 drop end`. -/
def choose : FuncDef where
  type := 0
  locals := []
  body := [.block (.value .i32)
    [.localGet 0, .localGet 1, .brIf 0, .drop, .i32Const 7, .br 0, .drop]]

/-- The module of this one function. -/
def chooseModule : Module := { types := [chooseType], functions := [choose] }

lemma typed_choose : TypedFunction chooseModule choose chooseType := by
  have hi32 : fits (some .i32) .i32 := .inr rfl
  refine @Typed.block _ _ _ _ _ [] [] _ rfl .nil ?_ (.nil (.cons hi32 .nil))
  refine @Typed.simple _ _ _ [] [] _ _ _ (.localGet rfl) .nil ?_
  refine @Typed.simple _ _ _ [some .i32] [] _ _ _ (.localGet rfl) .nil ?_
  refine @Typed.simple _ _ _ [] _ _ _ _ (.brIf rfl) (.cons hi32 (.cons hi32 .nil)) ?_
  refine @Typed.simple _ _ _ [] _ _ _ _ (.drop .i32) (.cons hi32 .nil) ?_
  refine @Typed.simple _ _ _ [] [] _ _ _ (.i32Const 7) .nil ?_
  refine @Typed.transfer _ _ _ [] _ _ (.br rfl (.cons hi32 .nil)) [none, none] ?_
  refine @Typed.simple _ _ _ [none] _ _ _ _ (.drop .i32) (.cons (.inl rfl) .nil) ?_
  exact .nil (.cons (.inl rfl) .nil)

theorem lowerFunction_of_typed_choose :
    TypedFunction chooseModule choose chooseType ∧ nestingOf choose.body ≤ maxNesting ∧
      (∃ method, lowerFunction chooseModule 0 = .ok method) ∧
      ∃ b, lowerBody chooseModule choose.body (functionStart choose chooseType) = .ok () b ∧
        b.enclosing = [] ∧ b.current.unreachable = choose.body.any Instr.isTransfer ∧
        (b.current.unreachable = false →
          b.current.stack.reverse.map Operand.ty = chooseType.results) :=
  have hnesting : nestingOf choose.body ≤ maxNesting := by
    simp [choose, nestingOf, Instr.nesting, maxNesting]
  ⟨typed_choose, hnesting, lowerFunction_of_typed (by simp [chooseModule, Module.tableTypes])
    rfl rfl typed_choose hnesting⟩

end WasmAot.Lowering
