/-
# How deep an expression nests

The reader of expressions keeps the constructs that are open on a stack and refuses to put more than
`maxNesting` of them there.  It does so at one kind of place only: at an opcode that opens a
construct, with as many constructs open already.  No other reader has a limit of this sort, so the
error tells where the place is (`expr_tooDeep_iff`).

What is open at a place is said without the reader: `OpenAt` counts openings and ends from
instruction to instruction.  Hence the functions of a module that was read do not nest deeper than
the limit (`nestingOf_le_of_decode`).
-/
import WasmAot.Proofs.Binary.Isolation
import WasmAot.Proofs.Binary.Produced
import WasmAot.Proofs.Binary.Grammar

namespace WasmAot.Binary

open Stateful

/-! ### Readers without a limit -/

/-- The error is not that constructs are nested too deeply. -/
def NotDeep (e : Error) : Prop :=
  ∀ offset, e ≠ .parsing offset .nestedTooDeeply

lemma notDeep_lexing (offset : Nat) (fault : LexFault) : NotDeep (.lexing offset fault) :=
  nofun

lemma throws_lexFault {α : Type} (offset : Nat) (fault : LexFault) :
    Throws NotDeep (lexFault offset fault : Decoder α) :=
  .throw (notDeep_lexing offset fault)

lemma throws_parseFault {α : Type} (offset : Nat) {fault : ParseFault}
    (h : fault ≠ .nestedTooDeeply) : Throws NotDeep (parseFault offset fault : Decoder α) := by
  refine .throw fun place heq => h ?_
  exact (Error.parsing.inj heq).2

lemma throws_position : Throws NotDeep position :=
  Throws.get.map _

lemma throws_unexpectedEnd {α : Type} : Throws NotDeep (unexpectedEnd : Decoder α) :=
  throws_position.bind fun offset => throws_lexFault offset _

lemma throws_peek : Throws NotDeep peek := by
  refine Throws.get.bind fun c => ?_
  split
  · exact throws_unexpectedEnd
  · exact .pure _

lemma throws_byte : Throws NotDeep byte := by
  refine Throws.get.bind fun c => ?_
  split
  · exact throws_unexpectedEnd
  · exact (Throws.set _).bind fun _ => .pure _

lemma throws_take (n : Nat) : Throws NotDeep (take n) := by
  refine Throws.get.bind fun c => ?_
  split
  · exact (Throws.set _).bind fun _ => .pure _
  · exact throws_unexpectedEnd

lemma throws_unsignedFrom (start bits room shift value : Nat) :
    Throws NotDeep (unsignedFrom start bits room shift value) := by
  induction room generalizing shift value with
  | zero => exact throws_lexFault _ _
  | succ room ih =>
    refine throws_byte.bind fun b => ?_
    dsimp only
    split
    · exact throws_lexFault _ _
    · split
      · exact ih _ _
      · exact .pure _

lemma throws_signedFrom (start bits room shift value : Nat) :
    Throws NotDeep (signedFrom start bits room shift value) := by
  induction room generalizing shift value with
  | zero => exact throws_lexFault _ _
  | succ room ih =>
    refine throws_byte.bind fun b => ?_
    dsimp only
    split
    · exact ih _ _
    · split
      · exact .pure _
      · split
        · exact .pure _
        · exact throws_lexFault _ _

lemma throws_u32 : Throws NotDeep u32 :=
  throws_position.bind fun start => throws_unsignedFrom start _ _ _ _

lemma throws_signed (bits : Nat) : Throws NotDeep (signed bits) :=
  throws_position.bind fun start => throws_signedFrom start _ _ _ _

lemma throws_repeated {α : Type} {item : Decoder α} (h : Throws NotDeep item) (n : Nat) :
    Throws NotDeep (repeated item n) := by
  induction n with
  | zero => exact .pure _
  | succ n ih => exact h.bind fun _ => ih.map _

lemma throws_vector {α : Type} {item : Decoder α} (h : Throws NotDeep item) :
    Throws NotDeep (vector item) := by
  refine throws_u32.bind fun length => Throws.get.bind fun c => ?_
  split
  · exact throws_unexpectedEnd
  · exact throws_repeated h length

lemma throws_valType : Throws NotDeep valType := by
  refine throws_position.bind fun offset => throws_byte.bind fun b => ?_
  split
  · exact .pure _
  · exact throws_parseFault _ nofun

lemma throws_refType : Throws NotDeep refType := by
  refine throws_position.bind fun offset => throws_valType.bind fun ty => ?_
  split
  · exact .pure _
  · exact throws_parseFault _ nofun

lemma throws_memArg : Throws NotDeep memArg :=
  throws_u32.bind fun _ => throws_u32.map _

lemma throws_zeroMemory : Throws NotDeep zeroMemory := by
  refine throws_position.bind fun offset => throws_byte.bind fun b => ?_
  split
  · exact .pure _
  · exact throws_parseFault _ nofun

lemma throws_blockType : Throws NotDeep blockType := by
  refine throws_position.bind fun offset => throws_peek.bind fun b => ?_
  split
  · exact throws_byte.map _
  · split
    · exact throws_byte.map _
    · refine (throws_signed 33).bind fun index => ?_
      split
      · exact .pure _
      · exact throws_parseFault _ nofun

lemma throws_extended (offset : Nat) : Throws NotDeep (extended offset) := by
  refine throws_u32.bind fun sub => ?_
  split
  case h_1 => exact throws_u32.bind fun _ => throws_zeroMemory.map _
  case h_3 => exact throws_zeroMemory.bind fun _ => throws_zeroMemory.map _
  case h_4 => exact throws_zeroMemory.map _
  case h_5 | h_7 => exact throws_u32.bind fun _ => throws_u32.map _
  case h_2 | h_6 | h_8 | h_9 | h_10 => exact throws_u32.map _
  case h_11 =>
    split
    · exact .pure _
    · exact throws_parseFault _ nofun

lemma throws_tabled (offset : Nat) (opcode : UInt8) : Throws NotDeep (tabled offset opcode) := by
  rw [tabled]
  split
  · exact throws_memArg.map _
  · split
    · exact throws_memArg.map _
    · split
      · exact .pure _
      · exact throws_parseFault _ (by simp)

lemma throws_plainInstr (offset : Nat) (opcode : UInt8) :
    Throws NotDeep (plainInstr offset opcode) := by
  rw [plainInstr]
  split
  case h_1 | h_2 | h_6 | h_9 | h_10 | h_26 => exact .pure _
  case h_3 | h_4 | h_7 | h_12 | h_13 | h_14 | h_15 | h_16 | h_17 | h_18 | h_27 =>
    exact throws_u32.map _
  case h_5 => exact (throws_vector throws_u32).bind fun _ => throws_u32.map _
  case h_8 => exact throws_u32.bind fun _ => throws_u32.map _
  case h_11 =>
    refine (throws_vector throws_valType).bind fun types => ?_
    split
    · exact .pure _
    · exact throws_parseFault _ (by simp)
  case h_19 | h_20 => exact throws_zeroMemory.map _
  case h_21 => exact ((throws_signed 32).map _).map _
  case h_22 => exact ((throws_signed 64).map _).map _
  case h_23 => exact ((throws_take 4).map _).map _
  case h_24 => exact ((throws_take 8).map _).map _
  case h_25 => exact throws_refType.map _
  case h_28 => exact throws_extended offset
  case h_29 => exact throws_tabled offset opcode

/-! ### The constructs open at a place -/

/-- The opcode opens a construct: it is `block`, `loop` or `if`. -/
def Opens (opcode : UInt8) : Prop :=
  opcode = 0x02 ∨ opcode = 0x03 ∨ opcode = 0x04

instance : DecidablePred Opens :=
  fun opcode => inferInstanceAs (Decidable (opcode = 0x02 ∨ opcode = 0x03 ∨ opcode = 0x04))

/-- In an expression that begins at `c`, this is a place between two instructions, reached with at
most `maxNesting` constructs open at a time.  Those that are open at the place are given by their
opcodes, innermost first, with an `else` for an `if` whose second arm has begun. -/
inductive OpenAt (c : Cursor) : List UInt8 → Cursor → Prop
  | start : OpenAt c [] c
  | opened {opens : List UInt8} {place c₁ c₂ : Cursor} {opcode : UInt8} {ty : BlockType} :
      OpenAt c opens place → opens.length < maxNesting → byte place = .ok opcode c₁ →
        Opens opcode → blockType c₁ = .ok ty c₂ → OpenAt c (opcode :: opens) c₂
  | second {opens : List UInt8} {place c₁ : Cursor} :
      OpenAt c (0x04 :: opens) place → byte place = .ok elseOpcode c₁ →
        OpenAt c (elseOpcode :: opens) c₁
  | closed {opens : List UInt8} {place c₁ : Cursor} {opcode : UInt8} :
      OpenAt c (opcode :: opens) place → byte place = .ok endOpcode c₁ → OpenAt c opens c₁
  | plain {opens : List UInt8} {place c₁ c₂ : Cursor} {opcode : UInt8} {instr : Instr} :
      OpenAt c opens place → byte place = .ok opcode c₁ → ¬ Opens opcode →
        opcode ≠ elseOpcode → opcode ≠ endOpcode →
        plainInstr place.offset opcode c₁ = .ok instr c₂ → OpenAt c opens c₂

lemma OpenAt.length_le {c place : Cursor} {opens : List UInt8} (h : OpenAt c opens place) :
    opens.length ≤ maxNesting := by
  induction h with
  | start => exact Nat.zero_le _
  | opened _ hroom => exact hroom
  | second _ _ ih => exact ih
  | closed _ _ ih => exact Nat.le_of_succ_le ih
  | plain _ _ _ _ _ _ ih => exact ih

/-- The opcode that an open construct is known by. -/
def Construct.opcode : Construct → UInt8
  | .block => 0x02
  | .loop => 0x03
  | .ifThen => 0x04
  | .ifElse _ => elseOpcode

lemma eq_ifThen_of_opcode {construct : Construct} (h : construct.opcode = 0x04) :
    construct = .ifThen := by
  cases construct with
  | ifThen => rfl
  | block | loop | ifElse => exact absurd h (by rw [Construct.opcode]; decide)

lemma opcode_of_ofOpcode? {opcode : UInt8} {construct : Construct}
    (h : Construct.ofOpcode? opcode = some construct) :
    Opens opcode ∧ construct.opcode = opcode := by
  rcases opcode_of_opens h with (⟨rfl, rfl⟩ | ⟨rfl, rfl⟩) | ⟨rfl, rfl⟩
  · exact ⟨.inl rfl, rfl⟩
  · exact ⟨.inr (.inl rfl), rfl⟩
  · exact ⟨.inr (.inr rfl), rfl⟩

lemma exists_of_opens {opcode : UInt8} (h : Opens opcode) :
    ∃ construct, Construct.ofOpcode? opcode = some construct := by
  rcases h with rfl | rfl | rfl
  · exact ⟨.block, rfl⟩
  · exact ⟨.loop, rfl⟩
  · exact ⟨.ifThen, rfl⟩

lemma not_opens_iff {opcode : UInt8} : Construct.ofOpcode? opcode = none ↔ ¬ Opens opcode := by
  constructor
  · intro hnone hopens
    obtain ⟨construct, hsome⟩ := exists_of_opens hopens
    rw [hnone] at hsome
    cases hsome
  · intro hopens
    cases hsome : Construct.ofOpcode? opcode with
    | none => rfl
    | some construct => exact absurd (opcode_of_ofOpcode? hsome).1 hopens

/-- The opcodes of the constructs that the reader has open. -/
def opcodesOf (pending : List OpenConstruct) : List UInt8 :=
  pending.map fun top => top.construct.opcode

/-- Here the reader gives up: one construct more would be open than there may be. -/
structure OneTooMany (c : Cursor) (offset : Nat) (c' : Cursor) (opens : List UInt8)
    (place : Cursor) (opcode : UInt8) : Prop where
  openAt : OpenAt c opens place
  full : opens.length = maxNesting
  next : byte place = .ok opcode c'
  opens : Opens opcode
  offset_eq : place.offset = offset

/-! ### The reader and the places -/

section

variable {c place c' : Cursor} {pending : List OpenConstruct} {done : List Instr} {offset : Nat}

/-- A reader that gives up for the nesting does so at once, or it takes a step to a place further on
and gives up from there. -/
lemma step_of_tooDeep (hplace : OpenAt c (opcodesOf pending) place)
    (h : readOn pending done place = .error (.parsing offset .nestedTooDeeply) c') :
    (∃ opcode, OneTooMany c offset c' (opcodesOf pending) place opcode) ∨
      ∃ pending' done' place', place'.remaining < place.remaining ∧
        OpenAt c (opcodesOf pending') place' ∧
        readOn pending' done' place' = .error (.parsing offset .nestedTooDeeply) c' := by
  rw [readOn_eq, exprStep, bind_run_ok (position_at place)] at h
  -- of all that is read here, only the test on the nesting can give up for the nesting
  rcases of_bind_run_error h with hbyte | ⟨opcode, c₁, hbyte, h⟩
  · exact absurd rfl (throws_byte hbyte offset)
  have hless := remaining_lt_of_byte hbyte
  cases hopcode : Construct.ofOpcode? opcode with
  | some construct =>
    obtain ⟨hopens, hname⟩ := opcode_of_ofOpcode? hopcode
    rw [hopcode] at h
    dsimp only at h
    split at h
    case isTrue hfull =>
      cases h
      have hlength : (opcodesOf pending).length = maxNesting :=
        Nat.le_antisymm hplace.length_le (by simpa [opcodesOf] using hfull)
      exact .inl ⟨opcode, hplace, hlength, hbyte, hopens, rfl⟩
    case isFalse hroom =>
      rcases of_bind_run_error h with hty | ⟨ty, c₂, hty, h⟩
      · exact absurd rfl (throws_blockType hty offset)
      have hkept := Forward.of_agrees agrees_blockType hty
      have hopened := hplace.opened (by simpa [opcodesOf] using hroom) hbyte hopens hty
      rw [← hname] at hopened
      refine .inr ⟨_, _, c₂, by omega, ?_, h⟩
      exact hopened
  | none =>
    rw [hopcode] at h
    dsimp only at h
    split at h
    case isTrue helse =>
      subst helse
      cases pending with
      | nil => cases h
      | cons top below =>
        obtain ⟨construct, ty, start, outer⟩ := top
        cases construct with
        | ifThen =>
          refine .inr ⟨_, _, c₁, hless, ?_, h⟩
          exact hplace.second hbyte
        | block | loop | ifElse => cases h
    case isFalse helse =>
      split at h
      case isTrue hend =>
        subst hend
        cases pending with
        | nil => cases h
        | cons top below => exact .inr ⟨_, _, c₁, hless, hplace.closed hbyte, h⟩
      case isFalse hend =>
        rcases of_bind_run_error h with hinstr | ⟨instr, c₂, hinstr, h⟩
        · exact absurd rfl (throws_plainInstr _ _ hinstr offset)
        have hkept := Grammar.forward_plainInstr _ _ hinstr
        have hplain := hplace.plain hbyte (not_opens_iff.1 hopcode) helse hend hinstr
        exact .inr ⟨_, _, c₂, by omega, hplain, h⟩

/-- By induction on what is left of the input. -/
lemma oneTooMany_of_readOn (hplace : OpenAt c (opcodesOf pending) place)
    (h : readOn pending done place = .error (.parsing offset .nestedTooDeeply) c') :
    ∃ opens place opcode, OneTooMany c offset c' opens place opcode := by
  induction hn : place.remaining using Nat.strong_induction_on
    generalizing place pending done with
  | h n ih =>
    rcases step_of_tooDeep hplace h with ⟨opcode, hhere⟩ | ⟨_, _, further, hless, hfurther, h⟩
    · exact ⟨_, place, opcode, hhere⟩
    · exact ih _ (by omega) hfurther h rfl

/-- At a place with some constructs open, what the reader does with the whole expression is what it
does from there. -/
lemma OpenAt.expr_eq {opens : List UInt8} (h : OpenAt c opens place) :
    ∃ pending done, opcodesOf pending = opens ∧ expr c = readOn pending done place := by
  induction h with
  | start => exact ⟨[], [], rfl, rfl⟩
  | @opened opens place c₁ c₂ opcode ty _ hroom hbyte hopens hty ih =>
    obtain ⟨pending, done, rfl, heq⟩ := ih
    obtain ⟨construct, hopcode⟩ := exists_of_opens hopens
    refine ⟨⟨construct, ty, place.offset, done⟩ :: pending, [], ?_, ?_⟩
    · rw [opcodesOf, List.map_cons, (opcode_of_ofOpcode? hopcode).2]
      rfl
    · have hless : ¬ maxNesting ≤ pending.length := by
        simpa [opcodesOf] using hroom
      rw [heq, readOn_eq, exprStep, bind_run_ok (position_at place), bind_run_ok hbyte, hopcode]
      dsimp only
      rw [if_neg hless, bind_run_ok hty]
  | @second opens place c₁ _ hbyte ih =>
    obtain ⟨pending, done, hpending, heq⟩ := ih
    cases pending with
    | nil => cases hpending
    | cons top below =>
      obtain ⟨construct, ty, start, outer⟩ := top
      -- the mark belongs to the innermost construct, which has to be a first arm
      obtain ⟨htop, rfl⟩ := List.cons.inj hpending
      obtain rfl : construct = .ifThen := eq_ifThen_of_opcode htop
      refine ⟨⟨.ifElse done.reverse, ty, start, outer⟩ :: below, [], rfl, ?_⟩
      rw [heq, readOn_eq, exprStep, bind_run_ok (position_at place), bind_run_ok hbyte]
      rfl
  | @closed opens place c₁ opcode _ hbyte ih =>
    obtain ⟨pending, done, hpending, heq⟩ := ih
    cases pending with
    | nil => cases hpending
    | cons top below =>
      obtain ⟨-, rfl⟩ := List.cons.inj hpending
      refine ⟨below, top.construct.close top.ty done.reverse :: top.outer, rfl, ?_⟩
      rw [heq, readOn_eq, exprStep, bind_run_ok (position_at place), bind_run_ok hbyte]
      rfl
  | @plain opens place c₁ c₂ opcode instr _ hbyte hopens helse hend hinstr ih =>
    obtain ⟨pending, done, rfl, heq⟩ := ih
    refine ⟨pending, instr :: done, rfl, ?_⟩
    rw [heq, readOn_eq, exprStep, bind_run_ok (position_at place), bind_run_ok hbyte,
      not_opens_iff.2 hopens]
    dsimp only
    rw [if_neg helse, if_neg hend, bind_run_ok hinstr]

/-- An expression is refused for its nesting exactly if it comes to a place where as many constructs
are open as there may be, and an opcode stands there that opens another. -/
lemma expr_tooDeep_iff :
    expr c = .error (.parsing offset .nestedTooDeeply) c' ↔
      ∃ opens place opcode, OneTooMany c offset c' opens place opcode := by
  constructor
  · intro h
    exact oneTooMany_of_readOn .start (h : readOn [] [] c = _)
  · rintro ⟨opens, place, opcode, hplace, hfull, hbyte, hopens, rfl⟩
    obtain ⟨pending, done, rfl, heq⟩ := hplace.expr_eq
    obtain ⟨construct, hopcode⟩ := exists_of_opens hopens
    have hlimit : maxNesting ≤ pending.length := by
      rw [← hfull, opcodesOf, List.length_map]
    rw [heq, readOn_eq, exprStep, bind_run_ok (position_at place), bind_run_ok hbyte, hopcode]
    dsimp only
    rw [if_pos hlimit]
    rfl

end

/-! ### Modules -/

/-- No function of the draft nests too deeply. -/
def Draft.Shallow (d : Draft) : Prop :=
  ∀ func ∈ d.built.functions, nestingOf func.body ≤ maxNesting

/-- The scanner adds no function that nests too deeply. -/
def KeepsShallow {α : Type} (x : Scanner α) : Prop :=
  ∀ ⦃s : ScanState⦄ ⦃a : α⦄ ⦃t : ScanState⦄, x s = .ok a t → s.draft.Shallow → t.draft.Shallow

namespace KeepsShallow

variable {α β : Type} {x : Scanner α} {f : α → Scanner β}

protected lemma pure (a : α) : KeepsShallow (pure a) := by
  intro s _ t hrun h
  cases hrun
  exact h

protected lemma get : KeepsShallow get := by
  intro s _ t hrun h
  cases hrun
  exact h

protected lemma bind (hx : KeepsShallow x) (hf : ∀ a, KeepsShallow (f a)) :
    KeepsShallow (x >>= f) := by
  intro s b u hrun h
  obtain ⟨a, t, hfirst, hsecond⟩ := of_bind_run_ok hrun
  exact hf a hsecond (hx hfirst h)

lemma item (d : Decoder α) : KeepsShallow (scanItem d) := by
  rintro ⟨c, draft⟩ a t hrun h
  obtain ⟨c', -, rfl⟩ := of_scanItem_run hrun
  exact h

lemma fault (offset : Nat) (fault : ParseFault) :
    KeepsShallow (parseFault offset fault : Scanner α) :=
  nofun

/-- A change that leaves the functions alone. -/
lemma modify {g : ScanState → ScanState}
    (hg : ∀ s, (g s).draft.built.functions = s.draft.built.functions) :
    KeepsShallow (modify g) := by
  intro s _ t hrun h
  cases hrun
  intro func hfunc
  rw [hg] at hfunc
  exact h func hfunc

end KeepsShallow

lemma nestingOf_le_of_funcBody {type : Nat} {func : FuncDef} {c c' : Cursor}
    (h : funcBody type c = .ok func c') : nestingOf func.body ≤ maxNesting := by
  obtain ⟨size, c₁, -, h⟩ := of_bind_run_ok h
  obtain ⟨h, -⟩ := run_of_exactlyOn h
  obtain ⟨locals, c₂, -, h⟩ := of_bind_run_ok h
  obtain ⟨body, c₃, hexpr, h⟩ := of_bind_run_ok h
  cases h
  exact (encodable_of_expr hexpr).2

lemma keepsShallow_bodies (types : List Nat) : KeepsShallow (scanBodies types) := by
  induction types with
  | nil => exact .pure _
  | cons type types ih =>
    rintro ⟨c, draft⟩ _ t hrun h
    obtain ⟨func, t₁, hitem, hrun⟩ := of_bind_run_ok hrun
    obtain ⟨c₁, hfunc, rfl⟩ := of_scanItem_run hitem
    obtain ⟨⟨⟩, t₂, hextend, hrun⟩ := of_bind_run_ok hrun
    cases hextend
    refine ih hrun fun other hother => ?_
    rcases List.mem_append.1 hother with hold | hnew
    · exact h other hold
    · rw [List.mem_singleton.1 hnew]
      exact nestingOf_le_of_funcBody hfunc

lemma keepsShallow_section (kind : SectionId) : KeepsShallow (scanSection kind) := by
  cases kind with
  | code =>
    refine (KeepsShallow.item _).bind fun offset => (KeepsShallow.item _).bind fun count =>
      KeepsShallow.get.bind fun s => ?_
    dsimp only
    split
    · exact (keepsShallow_bodies _).bind fun _ => .modify fun _ => rfl
    · exact .fault _ _
  | data =>
    refine (KeepsShallow.item _).bind fun segments => KeepsShallow.get.bind fun s => ?_
    split
    · exact .modify fun _ => rfl
    · split
      · exact .modify fun _ => rfl
      · exact (KeepsShallow.item _).bind fun _ => .fault _ _
  | _ => exact (KeepsShallow.item _).bind fun _ => .modify fun _ => rfl

lemma keepsShallow_framedSection : KeepsShallow framedSection := by
  refine (KeepsShallow.item _).bind fun id => (KeepsShallow.item _).bind fun size => ?_
  split
  · intro s _ t hrun h
    exact keepsShallow_section _ (run_of_exactlyOn hrun).1 h
  · exact .item _

lemma keepsShallow_sectionsFrom (steps : Nat) : KeepsShallow (sectionsFrom steps) := by
  induction steps with
  | zero => exact .pure _
  | succ steps ih =>
    refine KeepsShallow.get.bind fun s => ?_
    split
    · exact .pure _
    · exact keepsShallow_framedSection.bind fun _ => ih

/-- No function of a module that was read nests too deeply. -/
lemma nestingOf_le_of_decode {bytes : List UInt8} {m : Module} {func : FuncDef}
    (h : decode bytes = .ok m) (hfunc : func ∈ m.functions) : nestingOf func.body ≤ maxNesting := by
  rw [decode] at h
  split at h
  · cases h
  · split at h
    · cases h
    case h_2 hscan =>
      rw [Draft.complete] at h
      split at h
      · cases h
        exact keepsShallow_sectionsFrom _ hscan (List.forall_mem_nil _) func hfunc
      · cases h

end WasmAot.Binary
