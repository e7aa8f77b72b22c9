/-
# What the operations of a builder do

The lowering is put together from few operations: taking operands off, writing lines, binding new
variables.  For each of them this file says to which state it leads from a state in which it
succeeds.  States are written by two changes of a builder, of the operands in its innermost frame
(`withStack`) and of its lines and variables (`wrote`), so that later proofs need not open the
operations.
-/
import WasmAot.Proofs.Lowering.Recursive
import WasmAot.Proofs.Lowering.Walks

namespace WasmAot.Lowering

open Code Stateful

/-! ### Changes of a builder -/

namespace Builder

/-- The builder with other operands in its innermost frame. -/
def withStack (b : Builder) (stack : List Operand) : Builder :=
  { b with current := { b.current with stack } }

/-- The builder after some lines in which `vars` new variables are bound. -/
def wrote (b : Builder) (vars : Nat) (lines : List Line) : Builder :=
  { b with nextVar := b.nextVar + vars, out := b.out ++ lines.toArray }

variable (b : Builder) (stack stack' : List Operand) (vars vars' : Nat) (lines lines' : List Line)

@[simp] lemma withStack_current :
    (b.withStack stack).current = { b.current with stack } := rfl

@[simp] lemma withStack_enclosing : (b.withStack stack).enclosing = b.enclosing := rfl

@[simp] lemma withStack_locals : (b.withStack stack).locals = b.locals := rfl

@[simp] lemma withStack_nextVar : (b.withStack stack).nextVar = b.nextVar := rfl

@[simp] lemma withStack_nextLabel : (b.withStack stack).nextLabel = b.nextLabel := rfl

@[simp] lemma withStack_out : (b.withStack stack).out = b.out := rfl

@[simp] lemma wrote_current : (b.wrote vars lines).current = b.current := rfl

@[simp] lemma wrote_enclosing : (b.wrote vars lines).enclosing = b.enclosing := rfl

@[simp] lemma wrote_locals : (b.wrote vars lines).locals = b.locals := rfl

@[simp] lemma wrote_nextVar : (b.wrote vars lines).nextVar = b.nextVar + vars := rfl

@[simp] lemma wrote_nextLabel : (b.wrote vars lines).nextLabel = b.nextLabel := rfl

@[simp] lemma wrote_out : (b.wrote vars lines).out = b.out ++ lines.toArray := rfl

@[simp] lemma withStack_withStack : (b.withStack stack).withStack stack' = b.withStack stack' := rfl

@[simp] lemma wrote_withStack :
    (b.wrote vars lines).withStack stack = (b.withStack stack).wrote vars lines := rfl

@[simp] lemma wrote_wrote :
    (b.wrote vars lines).wrote vars' lines' = b.wrote (vars + vars') (lines ++ lines') := by
  simp only [wrote, Nat.add_assoc, Array.append_assoc, List.append_toArray]

@[simp] lemma wrote_zero_nil : b.wrote 0 [] = b := by
  simp only [wrote, Nat.add_zero, Array.append_empty]

lemma withStack_self : b.withStack b.current.stack = b := rfl

end Builder

/-! ### Names and lines -/

variable {b : Builder}

lemma emit_run (line : Line) : emit line b = .ok () (b.wrote 0 [line]) := by
  simp only [emit, modify_run, Builder.wrote, Nat.add_zero, Array.push_eq_append]

lemma newVar_run : newVar b = .ok (.temp b.nextVar) (b.wrote 1 []) := by
  simp only [newVar, Builder.wrote, Array.append_empty]
  rfl

lemma pushOperand_run (op : Operand) :
    pushOperand op b = .ok () (b.withStack (op :: b.current.stack)) := rfl

lemma result_run (ty : ValType) (value : Expr) :
    result ty value b = .ok () ((b.withStack (⟨.bound (.temp b.nextVar), ty⟩ :: b.current.stack)).wrote
      1 [.bind false (.temp b.nextVar) ty value]) := by
  simp only [result, pushBinding, bind_run, newVar_run, emit_run, pushBound, pushOperand_run,
    pure_run, Builder.wrote_wrote, Builder.wrote_withStack, Builder.wrote_current,
    List.nil_append, Nat.add_zero]

lemma require_run {α : Type} {x : Except Error α} {a : α} (h : x = .ok a) :
    require x b = .ok a b := by
  subst h
  rfl

lemma assignAll_run (vars : List Name) (values : List Atom) :
    assignAll vars values b =
      .ok () (b.wrote 0 (if vars.isEmpty then [] else [.assign vars values])) := by
  unfold assignAll
  split
  · rw [pure_run, Builder.wrote_zero_nil]
  · rw [emit_run]

lemma closeScopes_run (n : Nat) :
    closeScopes n b = .ok () (b.wrote 0 (List.replicate n .close)) := by
  induction n generalizing b with
  | zero => rw [closeScopes, pure_run, List.replicate_zero, Builder.wrote_zero_nil]
  | succ n ih =>
    rw [closeScopes, bind_run_ok (emit_run _), ih, Builder.wrote_wrote, List.replicate_succ]
    rfl

/-! ### Operands -/

/-- The local that an operand still reads. -/
def Operand.reads (op : Operand) : Option Nat :=
  match op.slot with
  | .bound _ => none
  | .deferred _ local? => local?

section Typed

variable {top rest : List Operand} {types : List ValType}

lemma peekOperands_run (h : b.current.stack = top ++ rest) :
    peekOperands top.length b = .ok top.reverse b := by
  have hops : b.operands = top ++ (rest ++ b.enclosing.flatMap Frame.stack) := by
    simp only [Builder.operands, Builder.frames, List.flatMap_cons, h, List.append_assoc]
  have hle : top.length ≤ b.operands.length := by
    rw [hops, List.length_append]
    exact Nat.le_add_right _ _
  simp only [peekOperands_eq, bind_run, get_run, if_pos hle, pure_run]
  rw [hops, List.take_left']
  rfl

lemma pop_run (h : b.current.stack = top ++ rest) :
    pop top.length b = .ok top.reverse (b.withStack rest) := by
  rw [pop_eq, bind_run_ok (peekOperands_run h), bind_run, modify_run]
  simp only [Builder.popped, h, List.drop_left', List.length_append,
    Nat.sub_eq_zero_of_le (Nat.le_add_right _ _), dropOperands_zero, pure_run]
  rfl

lemma peekAtoms_run (h : b.current.stack = top ++ rest)
    (htypes : top.map Operand.ty = types.reverse) : peekAtoms types b = .ok top.reverse b := by
  have hlen : types.length = top.length := by
    simpa using (congrArg List.length htypes).symm
  have heq : top.reverse.map Operand.ty = types := by
    rw [List.map_reverse, htypes, List.reverse_reverse]
  rw [peekAtoms, hlen, bind_run_ok (peekOperands_run h), bind_run, expectTypes, if_pos heq]
  rfl

lemma popOperandsOf_run (h : b.current.stack = top ++ rest)
    (htypes : top.map Operand.ty = types.reverse) :
    popOperandsOf types b = .ok top.reverse (b.withStack rest) := by
  have hlen : types.length = top.length := by
    simpa using (congrArg List.length htypes).symm
  rw [popOperandsOf, bind_run_ok (peekAtoms_run h htypes), hlen, pop_run h]

lemma popAtoms_run (h : b.current.stack = top ++ rest)
    (htypes : top.map Operand.ty = types.reverse) :
    popAtoms types b = .ok (top.reverse.map Operand.atom) (b.withStack rest) := by
  rw [popAtoms, bind_run_ok (popOperandsOf_run h htypes), pure_run]

lemma popAtom_run {op : Operand} {ty : ValType} (h : b.current.stack = op :: rest)
    (hty : op.ty = ty) : popAtom ty b = .ok op.atom (b.withStack rest) := by
  have hatoms := @popAtoms_run b [op] rest [ty] h (by simp [hty])
  rw [popAtom, bind_run_ok hatoms]
  rfl

lemma popOperand_run {op : Operand} (h : b.current.stack = op :: rest) :
    popOperand b = .ok op (b.withStack rest) := by
  have hpop : pop 1 b = .ok [op] (b.withStack rest) := @pop_run b [op] rest h
  rw [popOperand, bind_run_ok hpop]
  rfl

end Typed

/-! ### New variables -/

/-- A run of new variables. -/
def temps (first count : Nat) : List Name :=
  (List.range' first count).map .temp

/-- Operands in new variables. -/
def freshOperands : Nat → List ValType → List Operand
  | _, [] => []
  | n, ty :: types => ⟨.bound (.temp n), ty⟩ :: freshOperands (n + 1) types

/-- The declarations of new variables with their zeros. -/
def zeroLines : Nat → List ValType → List Line
  | _, [] => []
  | n, ty :: types => .bind true (.temp n) ty (.zero ty) :: zeroLines (n + 1) types

/-- The declarations of new variables with operands as their values. -/
def copyLines : Nat → List Operand → List Line
  | _, [] => []
  | n, op :: ops => .bind true (.temp n) op.ty (.atom op.atom) :: copyLines (n + 1) ops

lemma temps_succ (first count : Nat) :
    temps first (count + 1) = .temp first :: temps (first + 1) count := by
  simp only [temps, List.range'_succ, List.map_cons]

@[simp] lemma length_temps (first count : Nat) : (temps first count).length = count := by
  simp only [temps, List.length_map, List.length_range']

lemma nodup_temps (first count : Nat) : (temps first count).Nodup :=
  List.Pairwise.map _ (fun _ _ hne heq => hne (Name.temp.inj heq)) List.nodup_range'

lemma mem_temps {first count : Nat} {x : Name} :
    x ∈ temps first count ↔ ∃ n, first ≤ n ∧ n < first + count ∧ x = .temp n := by
  simp only [temps, List.mem_map, List.mem_range'_1]
  constructor
  · rintro ⟨n, ⟨hle, hlt⟩, rfl⟩
    exact ⟨n, hle, hlt, rfl⟩
  · rintro ⟨n, hle, hlt, rfl⟩
    exact ⟨n, ⟨hle, hlt⟩, rfl⟩

@[simp] lemma map_ty_freshOperands (n : Nat) (types : List ValType) :
    (freshOperands n types).map Operand.ty = types := by
  induction types generalizing n with
  | nil => rfl
  | cons ty types ih => rw [freshOperands, List.map_cons, ih]

lemma boundVars_freshOperands (n : Nat) (types : List ValType) :
    boundVars (freshOperands n types) = temps n types.length := by
  induction types generalizing n with
  | nil => rfl
  | cons ty types ih =>
    rw [freshOperands, List.length_cons, temps_succ, ← ih]
    rfl

lemma declareAll_run (types : List ValType) :
    declareAll types b =
      .ok (temps b.nextVar types.length) (b.wrote types.length (zeroLines b.nextVar types)) := by
  induction types generalizing b with
  | nil => rw [declareAll, pure_run, List.length_nil, zeroLines, Builder.wrote_zero_nil]; rfl
  | cons ty types ih =>
    rw [declareAll, bind_run_ok newVar_run, bind_run_ok (emit_run _), bind_run_ok ih, pure_run]
    simp only [Builder.wrote_wrote, Builder.wrote_nextVar, List.length_cons, temps_succ, zeroLines,
      List.nil_append, List.cons_append, Nat.add_comm 1]

lemma declareParams_run (ops : List Operand) :
    declareParams ops b = .ok (freshOperands b.nextVar (ops.map Operand.ty))
      (b.wrote ops.length (copyLines b.nextVar ops)) := by
  induction ops generalizing b with
  | nil => rw [declareParams, pure_run, List.length_nil, copyLines, Builder.wrote_zero_nil]; rfl
  | cons op ops ih =>
    rw [declareParams, bind_run_ok newVar_run, bind_run_ok (emit_run _), bind_run_ok ih, pure_run]
    simp only [Builder.wrote_wrote, Builder.wrote_nextVar, List.length_cons, copyLines,
      List.nil_append, List.cons_append, Nat.add_comm 1, List.map_cons, freshOperands]

lemma pushAllBound_run (n : Nat) (types : List ValType) :
    pushAllBound (temps n types.length) types b =
      .ok () (b.withStack ((freshOperands n types).reverse ++ b.current.stack)) := by
  induction types generalizing n b with
  | nil => rfl
  | cons ty types ih =>
    rw [List.length_cons, temps_succ, pushAllBound, pushBound, bind_run_ok (pushOperand_run _), ih]
    simp only [freshOperands, List.reverse_cons, List.append_assoc, List.cons_append,
      List.nil_append, Builder.withStack_withStack, Builder.withStack_current]

/-! ### Deferred reads -/

/-- The atom of an operand that has to be bound before one of the locals in question is written. -/
def staleAtom (which : Nat → Bool) (op : Operand) : Option Atom :=
  match op.slot with
  | .deferred atom (some index) => if which index then some atom else none
  | _ => none

lemma eq_atom_of_staleAtom {which : Nat → Bool} {op : Operand} {atom : Atom}
    (h : staleAtom which op = some atom) : atom = op.atom := by
  unfold staleAtom at h
  unfold Operand.atom
  split at h
  · rename_i hslot
    split at h
    · rw [hslot, ← Option.some.inj h]
    · cases h
  · cases h

/-- The lines that bind the operands that read one of the locals in question. -/
def settledLines (which : Nat → Bool) (n : Nat) : List Operand → List Line
  | [] => []
  | op :: below =>
    let lines := settledLines which n below
    match staleAtom which op with
    | some atom => lines ++ [.bind false (.temp (n + lines.length)) op.ty (.atom atom)]
    | none => lines

/-- The operands after those that read one of the locals in question have been bound. -/
def settledStack (which : Nat → Bool) (n : Nat) : List Operand → List Operand
  | [] => []
  | op :: below =>
    match staleAtom which op with
    | some _ =>
      { op with slot := .bound (.temp (n + (settledLines which n below).length)) } ::
        settledStack which n below
    | none => op :: settledStack which n below

@[simp] lemma map_ty_settledStack (which : Nat → Bool) (n : Nat) (ops : List Operand) :
    (settledStack which n ops).map Operand.ty = ops.map Operand.ty := by
  induction ops with
  | nil => rfl
  | cons op below ih =>
    rw [settledStack]
    split <;> simp only [List.map_cons, ih]

lemma settleOperand_run (which : Nat → Bool) (op : Operand) :
    settleOperand which op b = match staleAtom which op with
      | some atom => .ok { op with slot := .bound (.temp b.nextVar) }
          (b.wrote 1 [.bind false (.temp b.nextVar) op.ty (.atom atom)])
      | none => .ok op b := by
  obtain ⟨slot, ty⟩ := op
  cases slot with
  | bound var => rfl
  | deferred atom local? =>
    cases local? with
    | none => rfl
    | some index =>
      cases hwhich : which index with
      | false => simp only [settleOperand, staleAtom, hwhich]; rfl
      | true =>
        simp only [settleOperand, staleAtom, hwhich, if_true]
        rw [bind_run_ok newVar_run, bind_run_ok (emit_run _), pure_run, Builder.wrote_wrote]
        rfl

lemma settleStack_run (which : Nat → Bool) (ops : List Operand) :
    settleStack which ops b = .ok (settledStack which b.nextVar ops)
      (b.wrote (settledLines which b.nextVar ops).length (settledLines which b.nextVar ops)) := by
  induction ops with
  | nil => rw [settleStack, pure_run, settledLines, settledStack, List.length_nil,
      Builder.wrote_zero_nil]
  | cons op below ih =>
    rw [settleStack, bind_run_ok ih, bind_run, settleOperand_run, settledLines, settledStack]
    cases staleAtom which op with
    | none => rfl
    | some atom =>
      simp only [Builder.wrote_nextVar, Builder.wrote_wrote, pure_run, List.length_append,
        List.length_singleton]

/-- No operand of the frames reads a local. -/
def Settled (frames : List Frame) : Prop :=
  ∀ frame ∈ frames, ∀ op ∈ frame.stack, op.reads = none

lemma staleAtom_of_reads (which : Nat → Bool) {op : Operand} (h : op.reads = none) :
    staleAtom which op = none := by
  unfold Operand.reads at h
  unfold staleAtom
  split at h
  · simp [*]
  · simp [*]

lemma settledStack_of_reads (which : Nat → Bool) (n : Nat) {ops : List Operand}
    (h : ∀ op ∈ ops, op.reads = none) :
    settledStack which n ops = ops ∧ settledLines which n ops = [] := by
  induction ops with
  | nil => exact ⟨rfl, rfl⟩
  | cons op below ih =>
    obtain ⟨hstack, hlines⟩ := ih fun o ho => h o (List.mem_cons_of_mem _ ho)
    have hop := staleAtom_of_reads which (h op List.mem_cons_self)
    simp only [settledStack, settledLines, hop, hstack, hlines, and_self]

lemma settleFrames_run (which : Nat → Bool) {frames : List Frame} (h : Settled frames) :
    settleFrames which frames b = .ok frames b := by
  induction frames with
  | nil => rfl
  | cons frame outer ih =>
    have houter : Settled outer := fun f hf => h f (List.mem_cons_of_mem _ hf)
    obtain ⟨hstack, hlines⟩ := settledStack_of_reads which b.nextVar
      (h frame List.mem_cons_self)
    rw [settleFrames, bind_run_ok (ih houter), bind_run_ok (settleStack_run which frame.stack),
      hstack, hlines, pure_run, List.length_nil, Builder.wrote_zero_nil]

/-- Where the enclosing frames read no local, settling concerns the innermost frame only. -/
lemma settle_run (which : Nat → Bool) (h : Settled b.enclosing) :
    settle which b =
      .ok () ((b.withStack (settledStack which b.nextVar b.current.stack)).wrote
        (settledLines which b.nextVar b.current.stack).length
        (settledLines which b.nextVar b.current.stack)) := by
  rw [settle, bind_run_ok (get_run b), bind_run_ok (settleFrames_run which h),
    bind_run_ok (settleStack_run which _), modify_run]
  rfl

lemma reads_settledStack {which : Nat → Bool} {n : Nat} {ops : List Operand} {op : Operand}
    (h : op ∈ settledStack which n ops) {index : Nat} (hreads : op.reads = some index) :
    which index = false := by
  induction ops with
  | nil => cases h
  | cons o below ih =>
    rw [settledStack] at h
    split at h
    -- an operand that was settled is a variable and reads no local
    · rcases List.mem_cons.1 h with rfl | hmem
      · simp [Operand.reads] at hreads
      · exact ih hmem
    -- an operand that is left alone reads none of the locals that are to be settled
    · rename_i hstale
      rcases List.mem_cons.1 h with rfl | hmem
      · unfold Operand.reads at hreads
        unfold staleAtom at hstale
        split at hreads
        · cases hreads
        · simp_all
      · exact ih hmem

/-- After all locals have been settled no operand reads one. -/
lemma reads_settledStack_all {n : Nat} {ops : List Operand} :
    ∀ op ∈ settledStack (fun _ => true) n ops, op.reads = none := by
  intro op hop
  cases hreads : op.reads with
  | none => rfl
  | some index => exact absurd (reads_settledStack hop hreads) (by simp)

/-! ### Locals -/

/-- The operand that reads a local. -/
def localOperand (index : Nat) (ty : ValType) : Operand :=
  ⟨.deferred (if ty.isRef then .clone (.slot index) else .name (.slot index)) (some index), ty⟩

section Locals

variable {index : Nat} {ty : ValType} (hlocal : b.locals[index]? = some ty)

include hlocal

lemma typeOfLocal_run : typeOfLocal index b = .ok ty b := by
  rw [typeOfLocal, bind_run_ok (get_run b), hlocal]
  rfl

lemma getLocal_run :
    getLocal index b = .ok () (b.withStack (localOperand index ty :: b.current.stack)) := by
  rw [getLocal, bind_run_ok (typeOfLocal_run hlocal)]
  rfl

/-- A write to a local: the operands below that read it are bound first. -/
lemma setLocal_run {op : Operand} {rest : List Operand} (hsettled : Settled b.enclosing)
    (hstack : b.current.stack = op :: rest) (hty : op.ty = ty) :
    let lines := settledLines (· == index) b.nextVar rest
    setLocal index b = .ok (.slot index)
      ((b.withStack (settledStack (· == index) b.nextVar rest)).wrote lines.length
        (lines ++ [Line.assign [.slot index] [op.atom]])) := by
  intro lines
  rw [setLocal, bind_run_ok (typeOfLocal_run hlocal), bind_run_ok (popAtom_run hstack hty),
    bind_run_ok (settle_run (b := b.withStack rest) _ hsettled), bind_run_ok (emit_run _), pure_run]
  simp only [Builder.wrote_wrote]
  rfl

lemma teeLocal_run {op : Operand} {rest : List Operand} (hsettled : Settled b.enclosing)
    (hstack : b.current.stack = op :: rest) (hty : op.ty = ty) :
    let lines := settledLines (· == index) b.nextVar rest
    teeLocal index b = .ok ()
      ((b.withStack (localOperand index ty :: settledStack (· == index) b.nextVar rest)).wrote
        lines.length (lines ++ [Line.assign [.slot index] [op.atom]])) := by
  intro lines
  rw [teeLocal, bind_run_ok (setLocal_run hlocal hsettled hstack hty)]
  exact getLocal_run hlocal

end Locals

/-! ### Choice and numbers -/

/-- The builder after the value of an expression has been bound and pushed on other operands. -/
def Builder.computed (b : Builder) (rest : List Operand) (ty : ValType) (value : Expr) : Builder :=
  (b.withStack (⟨.bound (.temp b.nextVar), ty⟩ :: rest)).wrote
    1 [.bind false (.temp b.nextVar) ty value]

section Values

variable {cond first second : Operand} {rest : List Operand} {ty : ValType}

lemma lowerSelect_run {annotated : Option ValType}
    (hstack : b.current.stack = cond :: second :: first :: rest) (hcond : cond.ty = .i32)
    (hfirst : first.ty = ty) (hsecond : second.ty = ty) (hannotated : annotated.getD ty = ty) :
    lowerSelect annotated b =
      .ok () (b.computed rest ty (.select cond.atom first.atom second.atom)) := by
  have hpop : pop 2 (b.withStack (second :: first :: rest)) =
      .ok [first, second] (b.withStack rest) :=
    @pop_run (b.withStack (second :: first :: rest)) [second, first] rest rfl
  rw [lowerSelect, bind_run_ok (popAtom_run hstack hcond), bind_run_ok hpop]
  simp only [hfirst, hsecond, hannotated, decide_true, Bool.and_self, if_true]
  exact result_run _ _

lemma lowerUnary_run {op : UnOp} (hdefined : op.definedFor ty = true)
    (hstack : b.current.stack = first :: rest) (hfirst : first.ty = ty) :
    lowerUnary ty op b = .ok () (b.computed rest (op.resultType ty) (.unary ty op first.atom)) := by
  rw [lowerUnary, bind_run_ok (popAtom_run hstack hfirst),
    unaryExpr, if_pos hdefined,
    bind_run_ok (require_run rfl)]
  exact result_run _ _

lemma lowerBinary_run {op : BinOp} (hdefined : op.definedFor ty = true)
    (hstack : b.current.stack = second :: first :: rest) (hfirst : first.ty = ty)
    (hsecond : second.ty = ty) :
    lowerBinary ty op b = .ok () (b.computed rest ty (.binary ty op first.atom second.atom)) := by
  rw [lowerBinary, bind_run_ok (popAtom_run hstack hsecond),
    bind_run_ok (popAtom_run (b := b.withStack (first :: rest)) rfl hfirst),
    binaryExpr, if_pos hdefined,
    bind_run_ok (require_run rfl)]
  exact result_run _ _

lemma lowerCompare_run {op : CmpOp} (hdefined : op.definedFor ty = true)
    (hstack : b.current.stack = second :: first :: rest) (hfirst : first.ty = ty)
    (hsecond : second.ty = ty) :
    lowerCompare ty op b =
      .ok () (b.computed rest .i32 (.compare ty op first.atom second.atom)) := by
  rw [lowerCompare, bind_run_ok (popAtom_run hstack hsecond),
    bind_run_ok (popAtom_run (b := b.withStack (first :: rest)) rfl hfirst),
    compareExpr, if_pos hdefined,
    bind_run_ok (require_run rfl)]
  exact result_run _ _

end Values

end WasmAot.Lowering
