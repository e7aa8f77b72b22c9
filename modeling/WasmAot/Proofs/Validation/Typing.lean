/-
# The typing rules of instruction sequences

A sequence of instructions has a type if it takes operands of some types off the stack and leaves
operands of others.  The rules are those of WebAssembly's validation: an instruction says which
operands it takes and leaves, what lies below them stays; a construct has its own stack, which
starts with its parameters and ends with its results, and gives its body one more label to branch
to.  The stack behind an unconditional transfer is polymorphic: it has as many operands as are
wanted, and these can be of unknown type, which fits every type.

Lists of types are written bottom-most first.
-/
import WasmAot.Binary.Instruction
import WasmAot.Module.IndexSpace
import Mathlib.Data.List.Forall2
import Mathlib.Tactic.Lemma

namespace WasmAot

/-! ### What the rules ask of a module -/

/-- The index of the type of an imported function. -/
def ImportDesc.funcType? : ImportDesc → Option Nat
  | func type => some type
  | _ => none

namespace Module

/-- The indices of the types of all functions, in the order of the functions. -/
def funcTypeIndices (m : Module) : List Nat :=
  m.imports.filterMap (fun i => i.desc.funcType?) ++ m.functions.map FuncDef.type

/-- The signature that a block type stands for. -/
def signature? (m : Module) : BlockType → Option FuncType
  | .empty => some { params := [], results := [] }
  | .value ty => some { params := [], results := [ty] }
  | .indexed index => m.types[index]?

end Module

namespace Validation

/-- What the typing of an instruction depends on. -/
structure Context where
  module : Module
  /-- the types of the parameters and the declared locals -/
  locals : List ValType
  /-- the results of the function -/
  results : List ValType
  /-- the operands that a branch takes along, by its depth; the last label is the function itself -/
  labels : List (List ValType)

/-- The context inside a construct that takes operands of these types when it is branched to. -/
def Context.inside (C : Context) (label : List ValType) : Context :=
  { C with labels := label :: C.labels }

/-- The types of the operand and of the result of a conversion. -/
def conversion : CvtOp → ValType × ValType
  | .i32WrapI64 => (.i64, .i32)
  | .i32TruncF32S | .i32TruncF32U | .i32TruncSatF32S | .i32TruncSatF32U => (.f32, .i32)
  | .i32TruncF64S | .i32TruncF64U | .i32TruncSatF64S | .i32TruncSatF64U => (.f64, .i32)
  | .i64ExtendI32S | .i64ExtendI32U => (.i32, .i64)
  | .i64TruncF32S | .i64TruncF32U | .i64TruncSatF32S | .i64TruncSatF32U => (.f32, .i64)
  | .i64TruncF64S | .i64TruncF64U | .i64TruncSatF64S | .i64TruncSatF64U => (.f64, .i64)
  | .f32ConvertI32S | .f32ConvertI32U | .f32ReinterpretI32 => (.i32, .f32)
  | .f32ConvertI64S | .f32ConvertI64U => (.i64, .f32)
  | .f32DemoteF64 => (.f64, .f32)
  | .f64ConvertI32S | .f64ConvertI32U => (.i32, .f64)
  | .f64ConvertI64S | .f64ConvertI64U | .f64ReinterpretI64 => (.i64, .f64)
  | .f64PromoteF32 => (.f32, .f64)
  | .i32ReinterpretF32 => (.f32, .i32)
  | .i64ReinterpretF64 => (.f64, .i64)

/-! ### Instructions -/

/-- `Simple C instr before after`: the instruction, which owns no others and does not end its
sequence, takes operands of the types `before` and leaves operands of the types `after`.  A numeric
instruction has to have an opcode.  The alignment of an access and the declaration of references to
functions are not looked at. -/
inductive Simple (C : Context) : Instr → List ValType → List ValType → Prop
  | nop : Simple C .nop [] []
  | brIf {depth : Nat} {types : List ValType} (hlabel : C.labels[depth]? = some types) :
      Simple C (.brIf depth) (types ++ [.i32]) types
  | call {func index : Nat} {type : FuncType}
      (hfunc : C.module.funcTypeIndices[func]? = some index)
      (htype : C.module.types[index]? = some type) : Simple C (.call func) type.params type.results
  | callIndirect {index table : Nat} {type : FuncType} {tableType : TableType}
      (htype : C.module.types[index]? = some type)
      (htable : C.module.tableTypes[table]? = some tableType)
      (helem : tableType.elem = .funcref) :
      Simple C (.callIndirect index table) (type.params ++ [.i32]) type.results
  | refNull {ty : ValType} (href : ty.isRef = true) : Simple C (.refNull ty) [] [ty]
  | refIsNull {ty : ValType} (href : ty.isRef = true) : Simple C .refIsNull [ty] [.i32]
  | refFunc {func index : Nat} (hfunc : C.module.funcTypeIndices[func]? = some index) :
      Simple C (.refFunc func) [] [.funcref]
  | drop (ty : ValType) : Simple C .drop [ty] []
  | select {ty : ValType} (hnum : ty.isRef = false) :
      Simple C (.select none) [ty, ty, .i32] [ty]
  | selectOf (ty : ValType) : Simple C (.select (some ty)) [ty, ty, .i32] [ty]
  | localGet {index : Nat} {ty : ValType} (hlocal : C.locals[index]? = some ty) :
      Simple C (.localGet index) [] [ty]
  | localSet {index : Nat} {ty : ValType} (hlocal : C.locals[index]? = some ty) :
      Simple C (.localSet index) [ty] []
  | localTee {index : Nat} {ty : ValType} (hlocal : C.locals[index]? = some ty) :
      Simple C (.localTee index) [ty] [ty]
  | globalGet {index : Nat} {type : GlobalType}
      (hglobal : C.module.globalTypes[index]? = some type) :
      Simple C (.globalGet index) [] [type.ty]
  | globalSet {index : Nat} {type : GlobalType}
      (hglobal : C.module.globalTypes[index]? = some type) (hmutable : type.mutable = true) :
      Simple C (.globalSet index) [type.ty] []
  | tableGet {table : Nat} {type : TableType} (htable : C.module.tableTypes[table]? = some type) :
      Simple C (.tableGet table) [.i32] [type.elem]
  | tableSet {table : Nat} {type : TableType} (htable : C.module.tableTypes[table]? = some type) :
      Simple C (.tableSet table) [.i32, type.elem] []
  | tableInit {segment table : Nat} {type : TableType} {elements : ElemSegment}
      (htable : C.module.tableTypes[table]? = some type)
      (hsegment : C.module.elements[segment]? = some elements) (helem : elements.ty = type.elem) :
      Simple C (.tableInit segment table) [.i32, .i32, .i32] []
  | elemDrop {segment : Nat} {elements : ElemSegment}
      (hsegment : C.module.elements[segment]? = some elements) :
      Simple C (.elemDrop segment) [] []
  | tableCopy {dst src : Nat} {dstType srcType : TableType}
      (hdst : C.module.tableTypes[dst]? = some dstType)
      (hsrc : C.module.tableTypes[src]? = some srcType) (helem : dstType.elem = srcType.elem) :
      Simple C (.tableCopy dst src) [.i32, .i32, .i32] []
  | tableGrow {table : Nat} {type : TableType} (htable : C.module.tableTypes[table]? = some type) :
      Simple C (.tableGrow table) [type.elem, .i32] [.i32]
  | tableSize {table : Nat} {type : TableType} (htable : C.module.tableTypes[table]? = some type) :
      Simple C (.tableSize table) [] [.i32]
  | tableFill {table : Nat} {type : TableType} (htable : C.module.tableTypes[table]? = some type) :
      Simple C (.tableFill table) [.i32, type.elem, .i32] []
  | load (op : LoadOp) (arg : MemArg) (hmemory : 0 < C.module.count .memory) :
      Simple C (.load op arg) [.i32] [op.ty]
  | store (op : StoreOp) (arg : MemArg) (hmemory : 0 < C.module.count .memory) :
      Simple C (.store op arg) [.i32, op.ty] []
  | memorySize (hmemory : 0 < C.module.count .memory) : Simple C .memorySize [] [.i32]
  | memoryGrow (hmemory : 0 < C.module.count .memory) : Simple C .memoryGrow [.i32] [.i32]
  | memoryInit {segment : Nat} (hmemory : 0 < C.module.count .memory)
      (hsegment : segment < C.module.data.length) :
      Simple C (.memoryInit segment) [.i32, .i32, .i32] []
  | dataDrop {segment : Nat} (hsegment : segment < C.module.data.length) :
      Simple C (.dataDrop segment) [] []
  | memoryCopy (hmemory : 0 < C.module.count .memory) :
      Simple C .memoryCopy [.i32, .i32, .i32] []
  | memoryFill (hmemory : 0 < C.module.count .memory) :
      Simple C .memoryFill [.i32, .i32, .i32] []
  | i32Const (value : BitVec 32) : Simple C (.i32Const value) [] [.i32]
  | i64Const (value : BitVec 64) : Simple C (.i64Const value) [] [.i64]
  | f32Const (bits : BitVec 32) : Simple C (.f32Const bits) [] [.f32]
  | f64Const (bits : BitVec 64) : Simple C (.f64Const bits) [] [.f64]
  | compare {ty : ValType} {op : CmpOp} (hopcode : .compare ty op ∈ Binary.numericInstrs) :
      Simple C (.compare ty op) [ty, ty] [.i32]
  | eqz {ty : ValType} (hopcode : .unary ty .eqz ∈ Binary.numericInstrs) :
      Simple C (.unary ty .eqz) [ty] [.i32]
  | unary {ty : ValType} {op : UnOp} (hopcode : .unary ty op ∈ Binary.numericInstrs)
      (hop : op ≠ .eqz) : Simple C (.unary ty op) [ty] [ty]
  | binary {ty : ValType} {op : BinOp} (hopcode : .binary ty op ∈ Binary.numericInstrs) :
      Simple C (.binary ty op) [ty, ty] [ty]
  | convert (op : CvtOp) : Simple C (.convert op) [(conversion op).1] [(conversion op).2]

/-- An operand where one of the type `ty` is wanted; `none` is an operand of unknown type. -/
def fits (given : Option ValType) (ty : ValType) : Prop :=
  given = none ∨ given = some ty

/-- Operands where some of the given types are wanted. -/
def Fits (given : List (Option ValType)) (types : List ValType) : Prop :=
  List.Forall₂ fits given types

/-- `Transfer C instr given`: the instruction ends its sequence, and takes the operands `given`. -/
inductive Transfer (C : Context) : Instr → List (Option ValType) → Prop
  | unreachable : Transfer C .unreachable []
  | br {depth : Nat} {types : List ValType} {given : List (Option ValType)}
      (hlabel : C.labels[depth]? = some types) (hgiven : Fits given types) :
      Transfer C (.br depth) given
  | brTable {targets : List Nat} {default : Nat} {given : List (Option ValType)}
      {selector : Option ValType} (hselector : fits selector .i32)
      (htargets : ∀ depth ∈ default :: targets, ∃ types,
        C.labels[depth]? = some types ∧ Fits given types) :
      Transfer C (.brTable targets default) (given ++ [selector])
  | ret {given : List (Option ValType)} (hgiven : Fits given C.results) : Transfer C .ret given

/-! ### Sequences -/

/-- `Typed C body given types`: the sequence takes the operands `given` and leaves operands of the
types `types`. -/
inductive Typed : Context → List Instr → List (Option ValType) → List ValType → Prop
  | nil {C : Context} {given types} (hgiven : Fits given types) : Typed C [] given types
  | simple {C : Context} {instr : Instr} {rest : List Instr} {below given before after types}
      (hinstr : Simple C instr before after) (hgiven : Fits given before)
      (hrest : Typed C rest (below ++ after.map some) types) :
      Typed C (instr :: rest) (below ++ given) types
  /-- a choice between operands of unknown type, which leaves one -/
  | selectUnknown {C : Context} {rest : List Instr} {below cond types} (hcond : fits cond .i32)
      (hrest : Typed C rest (below ++ [none]) types) :
      Typed C (.select none :: rest) (below ++ [none, none, cond]) types
  | transfer {C : Context} {instr : Instr} {rest : List Instr} {below given types}
      (hinstr : Transfer C instr given) (anything : List (Option ValType))
      (hrest : Typed C rest anything types) :
      Typed C (instr :: rest) (below ++ given) types
  | block {C : Context} {ty : BlockType} {sig : FuncType} {body rest : List Instr}
      {below given types} (hsig : C.module.signature? ty = some sig) (hgiven : Fits given sig.params)
      (hbody : Typed (C.inside sig.results) body (sig.params.map some) sig.results)
      (hrest : Typed C rest (below ++ sig.results.map some) types) :
      Typed C (.block ty body :: rest) (below ++ given) types
  | loop {C : Context} {ty : BlockType} {sig : FuncType} {body rest : List Instr}
      {below given types} (hsig : C.module.signature? ty = some sig) (hgiven : Fits given sig.params)
      (hbody : Typed (C.inside sig.params) body (sig.params.map some) sig.results)
      (hrest : Typed C rest (below ++ sig.results.map some) types) :
      Typed C (.loop ty body :: rest) (below ++ given) types
  | ifElse {C : Context} {ty : BlockType} {sig : FuncType} {thenBody elseBody rest : List Instr}
      {below given cond types} (hsig : C.module.signature? ty = some sig)
      (hgiven : Fits given sig.params) (hcond : fits cond .i32)
      (hthen : Typed (C.inside sig.results) thenBody (sig.params.map some) sig.results)
      (helse : Typed (C.inside sig.results) elseBody (sig.params.map some) sig.results)
      (hrest : Typed C rest (below ++ sig.results.map some) types) :
      Typed C (.ifElse ty thenBody elseBody :: rest) (below ++ given ++ [cond]) types

/-- The context of the body of a function. -/
def Context.ofFunction (m : Module) (func : FuncDef) (type : FuncType) : Context :=
  { module := m, locals := type.params ++ func.locals, results := type.results,
    labels := [type.results] }

/-- The body of the function has the type of the function: it starts without operands and ends with
the results, which a branch out of it takes along as well. -/
def TypedFunction (m : Module) (func : FuncDef) (type : FuncType) : Prop :=
  Typed (Context.ofFunction m func type) func.body [] type.results

lemma fits_some {ty wanted : ValType} (h : fits (some ty) wanted) : wanted = ty := by
  rcases h with hnone | hsome
  · cases hnone
  · exact (Option.some.inj hsome).symm

/-- Operands of known types are wanted only where they have these types. -/
lemma fits_map_some {types wanted : List ValType} (h : Fits (types.map some) wanted) :
    wanted = types := by
  induction types generalizing wanted with
  | nil =>
    cases h
    rfl
  | cons ty types ih =>
    cases h with
    | cons hhead htail => rw [ih htail, fits_some hhead]

/-- Labels that take operands of known types are all of these types. -/
lemma labels_of_fits {C : Context} {depths : List Nat} {given : List ValType}
    (h : ∀ depth ∈ depths, ∃ types, C.labels[depth]? = some types ∧ Fits (given.map some) types) :
    ∀ depth ∈ depths, C.labels[depth]? = some given := by
  intro depth hdepth
  obtain ⟨types, hlabel, hfits⟩ := h depth hdepth
  rw [hlabel, fits_map_some hfits]

/-- The empty sequence leaves the operands it takes. -/
lemma eq_of_typed_nil {C : Context} {given types : List ValType}
    (h : Typed C [] (given.map some) types) : types = given := by
  generalize hoperands : given.map some = operands at h
  cases h with
  | nil hfits =>
    subst hoperands
    exact fits_map_some hfits

end Validation

/-! ### Nesting -/

mutual

/-- How deeply constructs are nested in an instruction. -/
def Instr.nesting : Instr → Nat
  | .block _ body => 1 + nestingOf body
  | .loop _ body => 1 + nestingOf body
  | .ifElse _ thenBody elseBody => 1 + max (nestingOf thenBody) (nestingOf elseBody)
  | _ => 0

/-- How deeply constructs are nested in a sequence. -/
def nestingOf : List Instr → Nat
  | [] => 0
  | instr :: rest => max instr.nesting (nestingOf rest)

end

/-! ### Integer instructions -/

mutual

/-- The instruction, and what is inside of it, is about integers, locals and control only. -/
def Instr.integral : Instr → Bool
  | .block _ body | .loop _ body => integralSeq body
  | .ifElse _ thenBody elseBody => integralSeq thenBody && integralSeq elseBody
  | .unreachable | .nop | .br _ | .brIf _ | .brTable .. | .ret | .drop | .select _ | .localGet _
  | .localSet _ | .localTee _ | .i32Const _ | .i64Const _ => true
  | .compare ty _ | .unary ty _ | .binary ty _ => ty.isInt
  | _ => false

/-- All instructions of a sequence are about integers, locals and control only. -/
def integralSeq : List Instr → Bool
  | [] => true
  | instr :: rest => instr.integral && integralSeq rest

end

lemma integralSeq_head {instr : Instr} {rest : List Instr} (h : instr.integral = false) :
    integralSeq (instr :: rest) = false := by
  rw [integralSeq, h, Bool.false_and]

lemma integralSeq_rest {instr : Instr} {rest : List Instr} (h : integralSeq rest = false) :
    integralSeq (instr :: rest) = false := by
  rw [integralSeq, h, Bool.and_false]

end WasmAot
