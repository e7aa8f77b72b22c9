/-
# Operations on typed operands

An operation of the lowering takes operands of some types off the innermost frame and puts others
there; nothing else changes but the lines and the number of variables.  `Runs` says this of an
operation for all builders, and is closed under sequencing, so what an instruction does to the types
is read off its definition.  The types in this file are listed from the top of the stack.
-/
import WasmAot.Proofs.Lowering.Constructs
import WasmAot.Proofs.Validation.Typing

namespace WasmAot

/-! ### Indices in range -/

namespace Module

variable {m : Module}

/-- The imports of functions are the imports that have the index of a type. -/
lemma map_importsOf_func :
    (m.importsOf .func).map (fun p => p.2.desc) =
      (m.imports.filterMap fun i => i.desc.funcType?).map ImportDesc.func := by
  have hgen : ∀ (imports : List Import) (n : Nat),
      (((imports.zipIdx n).filter fun p => p.1.desc.kind = .func).map fun p => (p.2, p.1)).map
          (fun p => p.2.desc) =
        (imports.filterMap fun i => i.desc.funcType?).map ImportDesc.func := by
    intro imports
    induction imports with
    | nil => intro n; rfl
    | cons item imports ih =>
      intro n
      have hrest := ih (n + 1)
      rw [List.zipIdx_cons, List.filter_cons, List.filterMap_cons]
      obtain ⟨moduleName, name, desc⟩ := item
      cases desc with
      | func type => simpa [ImportDesc.kind, ImportDesc.funcType?] using hrest
      | table type => exact hrest
      | memory limits => exact hrest
      | global type => exact hrest
  exact hgen m.imports 0

/-- A function index in range stands for a function of that type. -/
lemma typeIndexOfFunc_of {func index : Nat} (h : m.funcTypeIndices[func]? = some index) :
    m.typeIndexOfFunc func = .ok index ∧ ∃ refers, m.funcAt func = .ok refers := by
  have hmap := congrArg (fun l => l[func]?) m.map_importsOf_func
  have hlen := congrArg List.length m.map_importsOf_func
  simp only [List.getElem?_map, List.length_map] at hmap hlen
  rw [funcTypeIndices] at h
  unfold typeIndexOfFunc funcAt
  cases hitem : (m.importsOf .func)[func]? with
  | some p =>
    -- an imported function
    rw [hitem, Option.map_some] at hmap
    obtain ⟨type, htype, hdesc⟩ := Option.map_eq_some_iff.1 hmap.symm
    have heq : type = index := by
      rw [List.getElem?_append_left (List.getElem?_eq_some_iff.1 htype).1, htype] at h
      exact Option.some.inj h
    subst heq
    refine ⟨?_, _, rfl⟩
    simp [bind, Except.bind, ← hdesc]
  | none =>
    -- a function of the module
    rw [List.getElem?_eq_none_iff, hlen] at hitem
    rw [List.getElem?_append_right hitem, ← hlen, List.getElem?_map,
      Option.map_eq_some_iff] at h
    obtain ⟨func', hfunc, rfl⟩ := h
    simp [bind, Except.bind, importCount, hfunc]

lemma typeAt_of {index : Nat} {type : FuncType} (h : m.types[index]? = some type) :
    m.typeAt index = .ok type := by
  rw [typeAt, h]

lemma typeOfFunc_of {func index : Nat} {type : FuncType} (hindex : m.typeIndexOfFunc func = .ok index)
    (htype : m.types[index]? = some type) : m.typeOfFunc func = .ok type := by
  rw [typeOfFunc, hindex]
  exact typeAt_of htype

lemma signatureOf_of {ty : BlockType} {sig : FuncType} (h : m.signature? ty = some sig) :
    m.signatureOf ty = .ok sig := by
  cases ty with
  | empty | value ty => rw [signatureOf, Option.some.inj h]
  | indexed index => exact typeAt_of h

lemma typeOfGlobal_of {index : Nat} {type : GlobalType} (h : m.globalTypes[index]? = some type) :
    m.typeOfGlobal index = .ok type := by
  rw [typeOfGlobal, h]

lemma requireFuncTable_of {table : Nat} {type : TableType} (h : m.tableTypes[table]? = some type)
    (helem : type.elem = .funcref) : m.requireFuncTable table = .ok () := by
  simp [requireFuncTable, typeOfTable, h, helem, bind, Except.bind]

lemma requireMemory_of (h : 0 < m.count .memory) : m.requireMemory 0 = .ok () := if_pos h

lemma requireElemSegment_of {segment : Nat} {elements : ElemSegment}
    (h : m.elements[segment]? = some elements) : m.requireElemSegment segment = .ok () :=
  if_pos (List.getElem?_eq_some_iff.1 h).1

lemma requireDataSegment_of {segment : Nat} (h : segment < m.data.length) :
    m.requireDataSegment segment = .ok () := if_pos h

end Module

/-! ### Operators that have an opcode -/

namespace Validation

/-- The operator of a numeric instruction is defined for its type. -/
def operatorDefined : Instr → Bool
  | .compare ty op => op.definedFor ty
  | .unary ty op => op.definedFor ty
  | .binary ty op => op.definedFor ty
  | _ => true

lemma operatorDefined_of_mem {instr : Instr} (h : instr ∈ Binary.numericInstrs) :
    operatorDefined instr = true := by
  have hall : Binary.numericInstrs.all operatorDefined = true := by decide
  exact List.all_eq_true.1 hall instr h

lemma conversion_eq (op : CvtOp) : conversion op = (op.source, op.target) := by
  cases op <;> rfl

end Validation

/-! ### The effect of an operation on the types -/

namespace Lowering

open Code Stateful

/-- From every builder with operands of the types `before` in its innermost frame the operation
leads to one with operands of the types `after` there, and changes otherwise only lines and
variables. -/
def Runs {α : Type} (x : Build α) (before after : List ValType) : Prop :=
  ∀ b : Builder, b.current.stack.map Operand.ty = before →
    ∃ a stack vars lines, x b = .ok a ((b.withStack stack).wrote vars lines) ∧
      stack.map Operand.ty = after

namespace Runs

variable {α β : Type} {types types' types'' : List ValType}

lemma pure (a : α) : Runs (pure a : Build α) types types :=
  fun b h => ⟨a, b.current.stack, 0, [], by rw [Builder.wrote_zero_nil]; rfl, h⟩

lemma bind {x : Build α} {f : α → Build β} (hx : Runs x types types')
    (hf : ∀ a, Runs (f a) types' types'') : Runs (x >>= f) types types'' := by
  intro b h
  obtain ⟨a, stack, vars, lines, hrun, hstack⟩ := hx b h
  obtain ⟨c, stack', vars', lines', hrun', hstack'⟩ :=
    hf a ((b.withStack stack).wrote vars lines) hstack
  refine ⟨c, stack', vars + vars', lines ++ lines', ?_, hstack'⟩
  rw [bind_run_ok hrun, hrun', Builder.wrote_withStack, Builder.withStack_withStack,
    Builder.wrote_wrote]

lemma bind_require {x : Except Error α} {a : α} {f : α → Build β} (hx : x = .ok a)
    (hf : Runs (f a) types types') : Runs (require x >>= f) types types' := by
  intro b h
  rw [bind_run_ok (require_run hx)]
  exact hf b h

lemma emit (line : Line) : Runs (emit line) types types :=
  fun b h => ⟨(), b.current.stack, 0, [line], emit_run line, h⟩

lemma newVar : Runs newVar types types :=
  fun b h => ⟨_, b.current.stack, 1, [], newVar_run, h⟩

lemma pushOperand (op : Operand) : Runs (pushOperand op) types (op.ty :: types) :=
  fun b h => ⟨(), op :: b.current.stack, 0, [], by rw [Builder.wrote_zero_nil]; rfl,
    by rw [List.map_cons, h]⟩

lemma result (ty : ValType) (value : Expr) : Runs (result ty value) types (ty :: types) :=
  fun _ h => ⟨(), _, 1, _, result_run ty value, by rw [List.map_cons, h]⟩

lemma popAtom (ty : ValType) : Runs (popAtom ty) (ty :: types) types := by
  intro b h
  obtain ⟨op, rest, hstack, hty, hrest⟩ := List.map_eq_cons_iff.1 h
  exact ⟨_, rest, 0, [], by rw [popAtom_run hstack hty, Builder.wrote_zero_nil], hrest⟩

lemma popOperand (ty : ValType) : Runs popOperand (ty :: types) types := by
  intro b h
  obtain ⟨op, rest, hstack, -, hrest⟩ := List.map_eq_cons_iff.1 h
  exact ⟨_, rest, 0, [], by rw [popOperand_run hstack, Builder.wrote_zero_nil], hrest⟩

lemma popAtoms (params : List ValType) :
    Runs (popAtoms params) (params.reverse ++ types) types := by
  intro b h
  obtain ⟨top, rest, hstack, htop, hrest⟩ := List.map_eq_append_iff.1 h
  exact ⟨_, rest, 0, [], by rw [popAtoms_run hstack htop, Builder.wrote_zero_nil], hrest⟩

lemma popThree : Runs popThree (.i32 :: .i32 :: .i32 :: types) types :=
  (popAtom _).bind fun _ => (popAtom _).bind fun _ => (popAtom _).bind fun _ => .pure _

/-! Results of calls. -/

lemma push (results : List ValType) : Runs (push results) types (results.reverse ++ types) := by
  induction results generalizing types with
  | nil => exact .pure _
  | cons ty results ih =>
    rw [List.reverse_cons, List.append_assoc]
    exact newVar.bind fun _ => (pushOperand _).bind fun _ => ih.bind fun _ => .pure _

lemma pushResults (results : List ValType) (call : Expr) :
    Runs (pushResults results call) types (results.reverse ++ types) := by
  match results with
  | [] => exact .emit _
  | [ty] => exact .result _ _
  | ty :: ty' :: results => exact (push _).bind fun _ => .emit _

lemma unpackResults (values : Name) (position : Nat) (results : List ValType) :
    Runs (unpackResults values position results) types (results.reverse ++ types) := by
  induction results generalizing position types with
  | nil => exact .pure _
  | cons ty results ih =>
    rw [List.reverse_cons, List.append_assoc]
    exact (result _ _).bind fun _ => ih _

lemma bindDynamicResults (results : List ValType) (call : Expr) :
    Runs (bindDynamicResults results call) types (results.reverse ++ types) := by
  cases results with
  | nil => exact .emit _
  | cons ty results => exact newVar.bind fun _ => (emit _).bind fun _ => unpackResults _ _ _

end Runs

end Lowering

end WasmAot
