/-
# Reading the items of sections

Signatures, imports, tables, memories, globals, exports, segments and functions are read as what
they were written from.  Two forms need an argument beyond reading one part after the other: locals
are written in groups, which give back the list when they are spelled out, and a function is written
behind its size.
-/
import Mathlib.Algebra.Order.BigOperators.Group.List
import WasmAot.Proofs.Binary.Instructions

namespace WasmAot.Binary

/-! ### Types -/

lemma reads_limits {bounds : Limits} (h : bounds.Encodable) :
    Reads limits (limitsBytes bounds) bounds := by
  obtain ⟨min, max⟩ := bounds
  obtain ⟨hmin, hmax⟩ := h
  refine Reads.position_bind fun _ => ?_
  cases max with
  | none => exact Reads.byte_bind ((reads_u32 hmin).finish (Reads.pure _))
  | some max =>
    exact Reads.byte_bind ((reads_u32 hmin).bind ((reads_u32 (hmax max rfl)).finish (Reads.pure _)))

lemma reads_tableType {type : TableType} (h : type.Encodable) :
    Reads tableType (tableTypeBytes type) type :=
  (reads_refType h.1).bind ((reads_limits h.2).map (TableType.mk type.elem))

lemma reads_globalType (type : GlobalType) : Reads globalType (globalTypeBytes type) type := by
  obtain ⟨ty, mutable⟩ := type
  refine (reads_valType ty).bind (Reads.position_bind fun _ => ?_)
  cases mutable <;> exact Reads.byte_bind (Reads.pure _)

lemma reads_funcType {type : FuncType} (h : type.Encodable) :
    Reads funcType (funcTypeBytes type) type := by
  refine Reads.position_bind fun _ => Reads.byte_bind ?_
  rw [if_pos rfl]
  exact (reads_valTypes h.1).bind ((reads_valTypes h.2).map (FuncType.mk type.params))

/-! ### Imports, globals and exports -/

lemma reads_importDesc {desc : ImportDesc} (h : desc.Encodable) :
    Reads importDesc (importDescBytes desc) desc := by
  refine Reads.position_bind fun _ => ?_
  cases desc with
  | func => exact Reads.byte_bind ((reads_u32 h).map ImportDesc.func)
  | table => exact Reads.byte_bind ((reads_tableType h).map ImportDesc.table)
  | memory => exact Reads.byte_bind ((reads_limits h).map ImportDesc.memory)
  | global => exact Reads.byte_bind ((reads_globalType _).map ImportDesc.global)

lemma reads_importItem {item : Import} (h : item.Encodable) :
    Reads importItem (importBytes item) item := by
  obtain ⟨hmodule, hname, hdesc⟩ := h
  rw [importBytes, List.append_assoc]
  exact (reads_name hmodule).bind ((reads_name hname).bind
    ((reads_importDesc hdesc).map (Import.mk item.moduleName item.name)))

lemma reads_globalDef {item : GlobalDef} (h : item.init.Encodable) :
    Reads globalDef (globalBytes item) item :=
  (reads_globalType item.type).bind ((reads_constExpr h).map (GlobalDef.mk item.type))

lemma kindOfByte?_toByte (kind : ExternKind) : ExternKind.ofByte? kind.toByte = some kind := by
  cases kind <;> rfl

lemma reads_exportItem {item : Export} (h : item.Encodable) :
    Reads exportItem (exportBytes item) item := by
  refine (reads_name h.1).bind (Reads.position_bind fun _ => Reads.byte_bind ?_)
  rw [kindOfByte?_toByte]
  exact (reads_u32 h.2).map (Export.mk item.name item.kind)

/-! ### Segments -/

lemma reads_constExprs {items : List ConstExpr} (hcount : FitsU32 items.length)
    (h : ∀ item ∈ items, item.Encodable) :
    Reads (vector constExpr) (vectorBytes constBytes items) items :=
  reads_vector hcount (fun item hitem => reads_constExpr (h item hitem)) ⟨_, _, rfl⟩

lemma reads_elemSegment {segment : ElemSegment} (h : segment.Encodable) :
    Reads elemSegment (elemSegmentBytes segment) segment := by
  obtain ⟨hty, hmode, hcount, hitems⟩ := h
  obtain ⟨ty, mode, items⟩ := segment
  have hvector := reads_constExprs hcount hitems
  refine Reads.position_bind fun _ => ?_
  cases mode with
  | active table offset =>
    obtain ⟨htable, hoffset⟩ := hmode
    rw [elemSegmentBytes]
    dsimp only
    split
    case isTrue hshort =>
      obtain ⟨rfl, rfl⟩ := hshort
      exact (reads_small 4 (by decide)).bind ((reads_constExpr hoffset).bind
        (hvector.map (ElemSegment.mk .funcref (.active 0 offset))))
    case isFalse =>
      simp only [List.cons_append, List.append_assoc, List.nil_append]
      exact (reads_small 6 (by decide)).bind ((reads_u32 htable).bind
        ((reads_constExpr hoffset).bind ((reads_refType hty).bind
          (hvector.map (ElemSegment.mk ty (.active table offset))))))
  | passive =>
    exact (reads_small 5 (by decide)).bind ((reads_refType hty).bind
      (hvector.map (ElemSegment.mk ty .passive)))
  | declarative =>
    exact (reads_small 7 (by decide)).bind ((reads_refType hty).bind
      (hvector.map (ElemSegment.mk ty .declarative)))

lemma reads_dataMode {mode : DataMode} (h : mode.Encodable) :
    Reads dataMode (dataModeBytes mode) mode := by
  refine Reads.position_bind fun _ => ?_
  cases mode with
  | active memory offset =>
    obtain ⟨hmemory, hoffset⟩ := h
    rw [dataModeBytes]
    split
    case isTrue hshort =>
      subst hshort
      exact (reads_small 0 (by decide)).bind ((reads_constExpr hoffset).map (DataMode.active 0))
    case isFalse =>
      exact (reads_small 2 (by decide)).bind ((reads_u32 hmemory).bind
        ((reads_constExpr hoffset).map (DataMode.active memory)))
  | passive => exact (reads_small 1 (by decide)).finish (Reads.pure _)

lemma reads_dataSegment {segment : DataSegment} (h : segment.Encodable) :
    Reads dataSegment (dataSegmentBytes segment) segment :=
  (reads_dataMode h.1).bind ((reads_u32 h.2).bind
    ((reads_take segment.bytes).map (DataSegment.mk segment.mode)))

/-! ### Functions -/

/-- The groups, spelled out, are the locals. -/
lemma flatMap_localGroups (locals : List ValType) :
    (localGroups locals).flatMap (fun g => List.replicate g.1 g.2) = locals := by
  induction locals with
  | nil => rfl
  | cons ty rest ih =>
    rw [localGroups]
    cases hgroups : localGroups rest with
    | nil =>
      rw [hgroups] at ih
      rw [← ih]
      rfl
    | cons group groups =>
      obtain ⟨count, groupTy⟩ := group
      rw [hgroups] at ih
      dsimp only
      split
      case isTrue heq =>
        subst heq
        rw [← ih]
        rfl
      case isFalse => rw [List.flatMap_cons, ih]; rfl

lemma sum_localGroups (locals : List ValType) :
    ((localGroups locals).map Prod.fst).sum = locals.length := by
  have h := congrArg List.length (flatMap_localGroups locals)
  rw [List.length_flatMap] at h
  simpa using h

/-- Groups are not more than locals, and no group is larger than all of them. -/
lemma length_localGroups_le (locals : List ValType) :
    (localGroups locals).length ≤ locals.length := by
  induction locals with
  | nil => simp [localGroups]
  | cons ty rest ih =>
    rw [localGroups]
    cases hgroups : localGroups rest with
    | nil => simp
    | cons group groups =>
      rw [hgroups] at ih
      dsimp only
      split <;> simp only [List.length_cons] at ih ⊢ <;> omega

lemma reads_localDecls {locals : List ValType} (h : locals.length ≤ maxLocals) :
    Reads localDecls (vectorBytes (fun g => unsignedBytes g.1 ++ [g.2.toByte]) (localGroups locals))
      locals := by
  have hcount : FitsU32 (localGroups locals).length := by
    have := length_localGroups_le locals
    simp only [maxLocals, FitsU32] at h ⊢
    omega
  have hgroup : ∀ g ∈ localGroups locals,
      Reads localGroup (unsignedBytes g.1 ++ [g.2.toByte]) g := by
    intro g hg
    -- one group has no more locals than there are in all
    have hle : g.1 ≤ locals.length := by
      rw [← sum_localGroups]
      exact List.le_sum_of_mem (List.mem_map_of_mem hg)
    have hfits : FitsU32 g.1 := by
      simp only [maxLocals, FitsU32] at h ⊢
      omega
    exact (reads_u32 hfits).bind ((reads_valType g.2).map (Prod.mk g.1))
  refine Reads.position_bind fun _ => (reads_vector hcount hgroup ⟨_, _, rfl⟩).finish ?_
  rw [← List.sum_eq_foldr, sum_localGroups, if_neg (by omega), flatMap_localGroups]
  exact Reads.pure locals

lemma reads_funcBody {func : FuncDef} (h : func.Encodable)
    (hsize : FitsU32 (funcBodyBytes func).length) :
    Reads (funcBody func.type) (funcBodyBytes func) func := by
  refine reads_sizePrefixed ?_ ((reads_localDecls h.locals).bind
    ((reads_expr h.body h.nesting).map (FuncDef.mk func.type func.locals)))
  rw [funcBodyBytes, sizedBytes, List.length_append] at hsize
  simp only [FitsU32] at hsize ⊢
  omega

end WasmAot.Binary
