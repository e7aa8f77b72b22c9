/-
# What a section can change

While the sections of a file are read the module grows.  This file says how much of it one section
can touch, whatever the bytes are and whatever was read before.

* A section that is read to its end changes one part of the module only.  A list is never cut or
  rewritten: what it held stays in front, and behind it come as many new entries as the number says
  that the section begins with.
* A section with a fault changes nothing, wherever in it the fault is.  The readers of its items do
  not see the module (`keeps_scanItem`), and it is changed after all of them have succeeded.
* The code section alone adds its functions one by one.  If the fault is in the middle of it, the
  functions before the fault stay.  They are those that were declared first.
-/
import Mathlib.Tactic.IntervalCases
import WasmAot.Proofs.Binary.Announcements

namespace WasmAot.Binary

open Stateful

/-! ### The parts of a module -/

/-- The parts that a module has. -/
inductive ModulePart where
  | types
  | imports
  | functions
  | tables
  | memories
  | globals
  | exports
  | start
  | elements
  | data
  | dataCount
  deriving DecidableEq

/-- The part that the section with an id brings.  The function section brings none: what it lists is
remembered beside the module. -/
def partOfId (id : UInt8) : Option ModulePart :=
  match id.toNat with
  | 1 => some .types
  | 2 => some .imports
  | 4 => some .tables
  | 5 => some .memories
  | 6 => some .globals
  | 7 => some .exports
  | 8 => some .start
  | 9 => some .elements
  | 10 => some .functions
  | 11 => some .data
  | 12 => some .dataCount
  | _ => none

/-- The module with one part left out. -/
def withoutPart (m : Module) : ModulePart → Module
  | .types => { m with types := [] }
  | .imports => { m with imports := [] }
  | .functions => { m with functions := [] }
  | .tables => { m with tables := [] }
  | .memories => { m with memories := [] }
  | .globals => { m with globals := [] }
  | .exports => { m with exports := [] }
  | .start => { m with start := none }
  | .elements => { m with elements := [] }
  | .data => { m with data := [] }
  | .dataCount => { m with dataCount := none }

/-- The second list is the first one with `n` entries behind it. -/
def GrowsBy {α : Type} (n : Nat) (old new : List α) : Prop :=
  old <+: new ∧ new.length = old.length + n

/-- From `m` to `m'` the part has grown by `n` entries.  A part that is no list has become `n`. -/
def ExtendsPart (n : Nat) (m m' : Module) : ModulePart → Prop
  | .types => GrowsBy n m.types m'.types
  | .imports => GrowsBy n m.imports m'.imports
  | .functions => GrowsBy n m.functions m'.functions
  | .tables => GrowsBy n m.tables m'.tables
  | .memories => GrowsBy n m.memories m'.memories
  | .globals => GrowsBy n m.globals m'.globals
  | .exports => GrowsBy n m.exports m'.exports
  | .start => m'.start = some n
  | .elements => GrowsBy n m.elements m'.elements
  | .data => GrowsBy n m.data m'.data
  | .dataCount => m'.dataCount = some n

/-- From `m` to `m'` nothing but the part has changed, and that has grown by `n` entries. -/
def ChangesOnly (n : Nat) (m m' : Module) : Option ModulePart → Prop
  | none => m' = m
  | some part => withoutPart m' part = withoutPart m part ∧ ExtendsPart n m m' part

/-- What the section with an id does to a draft if the number that it begins with is `n`. -/
structure BringsOnly (id : UInt8) (n : Nat) (d d' : Draft) : Prop where
  module_part : ChangesOnly n d.built d'.built (partOfId id)
  /-- the function section replaces what was declared, and no other section does -/
  declared_length : id = 3 → d'.declared.length = n
  declared_eq : id ≠ 3 → d'.declared = d.declared

/-- From `d` to `d'` only functions were added, and their types are the first ones of the list. -/
def AddsFirst (types : List Nat) (d d' : Draft) : Prop :=
  ∃ added : List FuncDef, added.map FuncDef.type <+: types ∧
    d' = { d with built := { d.built with functions := d.built.functions ++ added } }

/-- What the section with an id may have done to a draft before its fault was found. -/
structure SparesFrom (id : UInt8) (d d' : Draft) : Prop where
  eq_of_ne : id ≠ 10 → d' = d
  /-- a code section leaves the functions before the fault -/
  addsFirst : AddsFirst d.declared d d'

/-- The two ways in which reading the section with an id can end. -/
def Footprint (id : UInt8) (s : ScanState) : EStateM.Result Error ScanState Unit → Prop
  | .ok _ t => ∃ n c, u32 s.cursor = .ok n c ∧ BringsOnly id n s.draft t.draft
  | .error _ t => SparesFrom id s.draft t.draft

lemma growsBy_append {α : Type} (old added : List α) :
    GrowsBy added.length old (old ++ added) :=
  ⟨List.prefix_append old added, List.length_append⟩

lemma addsFirst_self (types : List Nat) (d : Draft) : AddsFirst types d d :=
  ⟨[], List.nil_prefix, by simp⟩

/-! ### The number in front -/

lemma length_of_repeated {α : Type} {item : Decoder α} {n : Nat} {c c' : Cursor} {items : List α}
    (h : repeated item n c = .ok items c') : items.length = n := by
  induction n generalizing c items with
  | zero =>
    cases h
    rfl
  | succ n ih =>
    obtain ⟨a, c₁, -, h⟩ := of_bind_run_ok h
    obtain ⟨rest, c₂, hrest, h⟩ := of_bind_run_ok h
    cases h
    rw [List.length_cons, ih hrest]

/-- A vector begins with the number of its items. -/
lemma u32_of_vector {α : Type} {item : Decoder α} {c c' : Cursor} {items : List α}
    (h : vector item c = .ok items c') : ∃ c₁, u32 c = .ok items.length c₁ := by
  obtain ⟨n, c₁, hcount, h⟩ := of_bind_run_ok h
  rw [bind_run_ok (get_run _)] at h
  split at h
  case isTrue => cases h
  case isFalse =>
    rw [length_of_repeated h]
    exact ⟨c₁, hcount⟩

/-! ### Sections that are added as a whole -/

lemma keeps_scanItem {α : Type} (item : Decoder α) : Keeps ScanState.draft (scanItem item) := by
  constructor
  · intro s a t hrun
    obtain ⟨c, -, rfl⟩ := of_scanItem_run hrun
    rfl
  · intro s e t hrun
    rw [scanItem] at hrun
    split at hrun
    · cases hrun
    · cases hrun
      rfl

/-- After a fault that leaves the draft as it was there is nothing more to show. -/
lemma footprint_of_atomic {scan : Scanner Unit} (hatomic : Atomic ScanState.draft scan) {id : UInt8}
    {s : ScanState} (hok : ∀ t, scan s = .ok () t →
      ∃ n c, u32 s.cursor = .ok n c ∧ BringsOnly id n s.draft t.draft) :
    Footprint id s (scan s) := by
  cases hrun : scan s with
  | ok u t => exact hok t hrun
  | error e t =>
    have hdraft := hatomic hrun
    refine ⟨fun _ => hdraft, ?_⟩
    rw [hdraft]
    exact addsFirst_self _ _

/-- An item is read, and then the draft is changed. -/
lemma footprint_item {α : Type} {item : Decoder α} (count : α → Nat) (change : α → Draft → Draft)
    {id : UInt8} (hcount : ∀ a c c', item c = .ok a c' → ∃ c₁, u32 c = .ok (count a) c₁)
    (hchange : ∀ a d, BringsOnly id (count a) d (change a d)) (s : ScanState) :
    Footprint id s ((scanItem item >>= fun a =>
      modify fun t => { t with draft := change a t.draft }) s) := by
  refine footprint_of_atomic ?_ fun t hrun => ?_
  · exact (keeps_scanItem item).before fun a => Throws.atomic (.modify _)
  · obtain ⟨a, t₁, hitem, hmodify⟩ := of_bind_run_ok hrun
    obtain ⟨c, ha, rfl⟩ := of_scanItem_run hitem
    cases hmodify
    obtain ⟨c₁, hnumber⟩ := hcount a _ _ ha
    exact ⟨count a, c₁, hnumber, hchange a s.draft⟩

/-- A section that is a vector, whose items go behind those that a part of the module has. -/
lemma footprint_vector {α : Type} (item : Decoder α) (change : List α → Module → Module)
    {id : UInt8} (hid : id ≠ 3)
    (hchange : ∀ items m, ChangesOnly items.length m (change items m) (partOfId id))
    (s : ScanState) :
    Footprint id s ((scanItem (vector item) >>= fun items => extend (change items)) s) := by
  refine footprint_item List.length (fun items d => { d with built := change items d.built })
    (fun _ _ _ => u32_of_vector) (fun items d => ?_) s
  exact ⟨hchange items d.built, fun h => absurd h hid, fun _ => rfl⟩

/-- A section that is a number. -/
lemma footprint_number (change : Nat → Module → Module) {id : UInt8} (hid : id ≠ 3)
    (hchange : ∀ n m, ChangesOnly n m (change n m) (partOfId id)) (s : ScanState) :
    Footprint id s ((scanItem u32 >>= fun n => extend (change n)) s) := by
  refine footprint_item (fun n => n) (fun n d => { d with built := change n d.built })
    (fun _ _ _ h => ⟨_, h⟩) (fun n d => ?_) s
  exact ⟨hchange n d.built, fun h => absurd h hid, fun _ => rfl⟩

lemma footprint_function (s : ScanState) : Footprint 3 s (scanSection .function s) := by
  refine footprint_item List.length (fun declared d => { d with declared })
    (fun _ _ _ => u32_of_vector) (fun declared d => ?_) s
  exact ⟨rfl, fun _ => rfl, fun hne => absurd rfl hne⟩

/-- A wrong number of segments is noticed after all of them were read, but before they are added. -/
lemma atomic_scanData : Atomic ScanState.draft scanData := by
  refine (keeps_scanItem _).before fun segments => Keeps.get.before fun s => ?_
  split
  · exact Throws.atomic (.modify _)
  · split
    · exact Throws.atomic (.modify _)
    · exact (keeps_scanItem _).before fun offset => (Keeps.throw _).atomic

lemma footprint_data (s : ScanState) : Footprint 11 s (scanData s) := by
  refine footprint_of_atomic atomic_scanData fun t hrun => ?_
  obtain ⟨segments, c, hsegments, -, hdraft⟩ := exists_of_scanData hrun
  obtain ⟨c₁, hnumber⟩ := u32_of_vector hsegments
  refine ⟨segments.length, c₁, hnumber, ?_⟩
  rw [hdraft]
  exact ⟨⟨rfl, growsBy_append _ _⟩, nofun, fun _ => rfl⟩

/-! ### The code section -/

/-- The functions before a fault have the types that were declared first. -/
lemma addsFirst_of_scanBodies {types : List Nat} {c : Cursor} {d : Draft} {e : Error} {t : ScanState}
    (h : scanBodies types ⟨c, d⟩ = .error e t) : AddsFirst types d t.draft := by
  induction types generalizing c d with
  | nil => cases h
  | cons type types ih =>
    rcases of_bind_run_error h with hitem | ⟨func, t₁, hitem, h⟩
    · -- the fault is in the first body, which is not added
      rw [(keeps_scanItem _).of_error hitem]
      exact addsFirst_self _ _
    · obtain ⟨c₁, hfunc, rfl⟩ := of_scanItem_run hitem
      rcases of_bind_run_error h with hextend | ⟨⟨⟩, t₂, hextend, h⟩
      · cases hextend
      · cases hextend
        obtain ⟨added, hprefix, hdraft⟩ := ih h
        refine ⟨func :: added, ?_, ?_⟩
        · rw [List.map_cons, type_of_funcBody hfunc]
          exact List.cons_prefix_cons.2 ⟨rfl, hprefix⟩
        · simpa using hdraft

/-- Before the bodies nothing changes, and behind them nothing fails. -/
lemma addsFirst_of_scanCode {c : Cursor} {d : Draft} {e : Error} {t : ScanState}
    (h : scanCode ⟨c, d⟩ = .error e t) : AddsFirst d.declared d t.draft := by
  rcases of_bind_run_error h with hitem | ⟨offset, t₁, hitem, h⟩
  · rw [(keeps_scanItem _).of_error hitem]
    exact addsFirst_self _ _
  obtain ⟨c₁, -, rfl⟩ := of_scanItem_run hitem
  rcases of_bind_run_error h with hitem | ⟨count, t₂, hitem, h⟩
  · rw [(keeps_scanItem _).of_error hitem]
    exact addsFirst_self _ _
  obtain ⟨c₂, -, rfl⟩ := of_scanItem_run hitem
  rw [bind_run_ok (get_run _)] at h
  split at h
  case isTrue =>
    rcases of_bind_run_error h with hbodies | ⟨⟨⟩, t₃, -, h⟩
    · exact addsFirst_of_scanBodies hbodies
    · cases h
  case isFalse =>
    cases h
    exact addsFirst_self _ _

lemma footprint_code (s : ScanState) : Footprint 10 s (scanCode s) := by
  cases hrun : scanCode s with
  | ok u t =>
    obtain ⟨functions, c, hnumber, -, hdraft⟩ := exists_of_scanCode hrun
    refine ⟨functions.length, c, hnumber, ?_⟩
    rw [hdraft]
    exact ⟨⟨rfl, growsBy_append _ _⟩, nofun, fun _ => rfl⟩
  | error e t => exact ⟨fun hne => absurd rfl hne, addsFirst_of_scanCode hrun⟩

/-! ### All sections -/

lemma footprint_scanSection (kind : SectionId) (s : ScanState) :
    Footprint kind.byte s (scanSection kind s) := by
  cases kind with
  | function => exact footprint_function s
  | code => exact footprint_code s
  | data => exact footprint_data s
  | start | dataCount =>
    refine footprint_number _ (by decide) (fun n m => ?_) s
    exact ⟨rfl, rfl⟩
  | _ =>
    refine footprint_vector _ _ (by decide) (fun items m => ?_) s
    exact ⟨rfl, growsBy_append _ _⟩

lemma SectionId.isSome_ofByte? {id : UInt8} (h : 1 ≤ id ∧ id ≤ 12) : (ofByte? id).isSome := by
  have hlow : 1 ≤ id.toNat := UInt8.le_iff_toNat_le.1 h.1
  have hhigh : id.toNat ≤ 12 := UInt8.le_iff_toNat_le.1 h.2
  rw [ofByte?]
  interval_cases id.toNat <;> rfl

/-- Every id from 1 to 12 has a section, and from every state reading it ends in one of two ways.  It
succeeds and changes the part of the module that belongs to the id, which keeps what it held and
grows by the number in front; or it fails and changes nothing, but for the functions that a code
section had added before its fault. -/
theorem scanSection_footprint {id : UInt8} (h : 1 ≤ id ∧ id ≤ 12) :
    ∃ kind, SectionId.ofByte? id = some kind ∧
      ∀ s : ScanState, Footprint id s (scanSection kind s) := by
  obtain ⟨kind, hkind⟩ := Option.isSome_iff_exists.1 (SectionId.isSome_ofByte? h)
  refine ⟨kind, hkind, fun s => ?_⟩
  rw [eq_byte_of_ofByte? hkind]
  exact footprint_scanSection kind s

/-- Two functions are declared.  The body of the first is empty, and that of the second is missing. -/
def halfCode : ScanState :=
  { cursor := .start [2, 2, 0, 0x0b], draft := { declared := [4, 7] } }

theorem scanSection_footprint_halfCode :
    ((1 : UInt8) ≤ 10 ∧ (10 : UInt8) ≤ 12) ∧ ∃ kind, SectionId.ofByte? 10 = some kind ∧
      (∃ e t, scanSection kind halfCode = .error e t ∧
        t.draft.built.functions.map FuncDef.type = [4]) ∧
      Footprint 10 halfCode (scanSection kind halfCode) := by
  obtain ⟨kind, hkind, hfootprint⟩ := @scanSection_footprint 10 (by decide)
  cases hkind
  exact ⟨by decide, .code, rfl, ⟨_, _, rfl, rfl⟩, hfootprint halfCode⟩

end WasmAot.Binary
