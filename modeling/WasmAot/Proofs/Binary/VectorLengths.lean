/-
# The length of a vector

A length beyond what is left of the input is refused before the first item is read.  This changes the
error, but it refuses no vector that can be read: each item takes at least a byte, so the loop that
reads as many items as the length says would run out of bytes as well.  The test would be wrong for
items that take no byte; every item that vectors are read of takes one, also those that hold vectors
or expressions themselves.
-/
import WasmAot.Proofs.Binary.Locality

namespace WasmAot.Binary

open Stateful

/-! ### The loop without a test -/

/-- Reads `n` more items, behind those that are read already. -/
def readMore {α : Type} (item : Decoder α) : (n : Nat) → (items : List α) → Decoder (List α)
  | 0, items => return items
  | n + 1, items => do
    let a ← item
    readMore item n (items ++ [a])

/-- A vector whose length is taken as it is. -/
def uncheckedVector {α : Type} (item : Decoder α) : Decoder (List α) := do
  let length ← u32
  readMore item length []

/-- A success leaves fewer bytes than there were. -/
def TakesByte {α : Type} (d : Decoder α) : Prop :=
  ∀ ⦃c : Cursor⦄ ⦃a : α⦄ ⦃c' : Cursor⦄, d c = .ok a c' →
    c.offset < c'.offset ∧ c'.remaining < c.remaining

section

variable {α : Type} {item : Decoder α}

lemma readMore_eq (n : Nat) (items : List α) :
    readMore item n items = do return items ++ (← repeated item n) := by
  induction n generalizing items with
  | zero =>
    rw [readMore, repeated, pure_bind, List.append_nil]
  | succ n ih =>
    rw [readMore, repeated, bind_assoc]
    congr 1
    funext a
    rw [ih, bind_assoc]
    simp only [pure_bind, List.append_assoc, List.singleton_append]

/-- A decoder that depends on nothing but the bytes it takes, and fails where there are none, takes
one. -/
lemma TakesByte.of_agrees (h : Agrees item item) (hempty : ∃ e c, item ⟨0, []⟩ = .error e c) :
    TakesByte item := by
  rintro ⟨offset, input⟩ a c hrun
  obtain ⟨used, rest, rfl, rfl, hread⟩ := h hrun
  have hpos := hread.length_pos hempty
  simp only [Cursor.remaining, List.length_append]
  omega

/-- Items that were read have taken a byte each. -/
lemma le_remaining_of_repeated (h : TakesByte item) {n : Nat} {c c' : Cursor} {items : List α}
    (hrun : repeated item n c = .ok items c') : n ≤ c.remaining := by
  induction n generalizing c items c' with
  | zero => exact Nat.zero_le _
  | succ n ih =>
    obtain ⟨a, c₁, ha, hrest⟩ := of_bind_run_ok hrun
    obtain ⟨rest, c₂, hitems, -⟩ := of_bind_run_ok hrest
    have hfirst := (h ha).2
    have hless := ih hitems
    omega

/-- The test of the length refuses no vector that can be read. -/
lemma vector_ok_iff (h : TakesByte item) (c : Cursor) (items : List α) (c' : Cursor) :
    vector item c = .ok items c' ↔ uncheckedVector item c = .ok items c' := by
  rw [vector, uncheckedVector, bind_run, bind_run]
  cases u32 c with
  | error e c₁ => exact Iff.rfl
  | ok length c₁ =>
    dsimp only
    have hloop : readMore item length [] = repeated item length := by
      rw [readMore_eq]
      exact bind_pure _
    rw [hloop, bind_run_ok (get_run c₁)]
    split
    case isTrue hshort =>
      refine ⟨nofun, fun hrun => ?_⟩
      have hroom := le_remaining_of_repeated h hrun
      omega
    case isFalse => exact Iff.rfl

/-- Items without a byte are refused if they are more than the bytes behind them. -/
example : uncheckedVector (pure 7) (.start [0x02]) = .ok [7, 7] ⟨1, []⟩ ∧
    vector (pure 7) (.start [0x02]) = .error (.lexing 1 .unexpectedEnd) ⟨1, []⟩ :=
  ⟨rfl, rfl⟩

end

/-! ### The vectors of the format -/

/-- What vectors are read of, and its type. -/
inductive VectorItem : Type → Type
  | valType : VectorItem ValType
  | u32 : VectorItem Nat
  /-- the index of a function, as a reference to it -/
  | funcIndex : VectorItem ConstExpr
  | funcType : VectorItem FuncType
  | importItem : VectorItem Import
  | tableType : VectorItem TableType
  | limits : VectorItem Limits
  | globalDef : VectorItem GlobalDef
  | exportItem : VectorItem Export
  | elemSegment : VectorItem ElemSegment
  | dataSegment : VectorItem DataSegment
  | localGroup : VectorItem (Nat × ValType)
  | constExpr : VectorItem ConstExpr

def VectorItem.decoder {α : Type} : VectorItem α → Decoder α
  | .valType => Binary.valType
  | .u32 => Binary.u32
  | .funcIndex => do return .refFunc (← Binary.u32)
  | .funcType => Binary.funcType
  | .importItem => Binary.importItem
  | .tableType => Binary.tableType
  | .limits => Binary.limits
  | .globalDef => Binary.globalDef
  | .exportItem => Binary.exportItem
  | .elemSegment => Binary.elemSegment
  | .dataSegment => Binary.dataSegment
  | .localGroup => Binary.localGroup
  | .constExpr => Binary.constExpr

lemma agrees_vectorItem {α : Type} (kind : VectorItem α) : Agrees kind.decoder kind.decoder := by
  cases kind with
  | valType => exact agrees_valType
  | u32 => exact agrees_u32
  | funcIndex => exact agrees_u32.map _
  | funcType => exact agrees_funcType
  | importItem => exact agrees_importItem
  | tableType => exact agrees_tableType
  | limits => exact agrees_limits
  | globalDef => exact agrees_globalDef
  | exportItem => exact agrees_exportItem
  | elemSegment => exact agrees_elemSegment
  | dataSegment => exact agrees_dataSegment
  | localGroup => exact agrees_u32.bind fun _ => agrees_valType.map _
  | constExpr => exact agrees_constExpr

lemma takesByte_vectorItem {α : Type} (kind : VectorItem α) : TakesByte kind.decoder := by
  refine .of_agrees (agrees_vectorItem kind) ?_
  cases kind <;> exact ⟨_, _, rfl⟩

/-- Whatever a vector is read of takes at least a byte, and the test of its length refuses nothing
that can be read: the vector is read exactly if the loop that takes the length as it is reads it, with
the same items in the same order, up to the same place. -/
theorem vectorLength_refusesNothing {α : Type} (kind : VectorItem α) :
    TakesByte kind.decoder ∧
      ∀ (c : Cursor) (items : List α) (c' : Cursor),
        vector kind.decoder c = .ok items c' ↔ uncheckedVector kind.decoder c = .ok items c' :=
  ⟨takesByte_vectorItem kind, vector_ok_iff (takesByte_vectorItem kind)⟩

end WasmAot.Binary
