/-
# Readers look at nothing but what they take

What a decoder gives depends only on the bytes that it takes: where it has succeeded once, it
succeeds on the same bytes at any other place, whatever comes after them.  Two tests look further,
at how much of the input is left (the length of a vector, the size of a body), and one reader has
the rest of the input as its bound (expressions); they never turn a success into a failure, because
the items, the body and the instructions are among the bytes that were taken.

The offset of the next byte is used in errors only.  So the statement is about pairs of decoders
that differ in the offsets they were given (`Agrees`), and it is proved decoder by decoder.
-/
import WasmAot.Proofs.Binary.Instructions

namespace WasmAot.Binary

open Stateful

/-- What the first decoder takes, and gives a value for, the second one reads as this value. -/
def Agrees {α : Type} (d e : Decoder α) : Prop :=
  ∀ ⦃offset : Nat⦄ ⦃input : List UInt8⦄ ⦃a : α⦄ ⦃c : Cursor⦄, d ⟨offset, input⟩ = .ok a c →
    ∃ used rest, input = used ++ rest ∧ c = ⟨offset + used.length, rest⟩ ∧ Reads e used a

namespace Agrees

variable {α β : Type} {d e : Decoder α} {f g : α → Decoder β}

protected lemma pure (a : α) : Agrees (pure a) (pure a) := by
  intro offset input b c h
  cases h
  exact ⟨[], input, rfl, rfl, Reads.pure a⟩

protected lemma bind (hd : Agrees d e) (hf : ∀ a, Agrees (f a) (g a)) :
    Agrees (d >>= f) (e >>= g) := by
  intro offset input b c h
  obtain ⟨a, c₁, ha, hb⟩ := of_bind_run_ok h
  obtain ⟨xs, rest, rfl, rfl, hxs⟩ := hd ha
  obtain ⟨ys, rest, rfl, rfl, hys⟩ := hf a hb
  refine ⟨xs ++ ys, rest, (List.append_assoc ..).symm, ?_, hxs.bind hys⟩
  rw [List.length_append, Nat.add_assoc]

protected lemma map (hd : Agrees d e) (f : α → β) :
    Agrees (do return f (← d)) (do return f (← e)) :=
  hd.bind fun a => .pure (f a)

/-- All decoders that agree with one read the same bytes, since these are determined by the place
where reading stopped. -/
lemma reads_all {ι : Type} [Nonempty ι] {e : ι → Decoder α} (h : ∀ i, Agrees d (e i)) {offset : Nat}
    {input : List UInt8} {a : α} {c : Cursor} (hrun : d ⟨offset, input⟩ = .ok a c) :
    ∃ used rest, input = used ++ rest ∧ c = ⟨offset + used.length, rest⟩ ∧
      ∀ i, Reads (e i) used a := by
  obtain ⟨i₀⟩ := ‹Nonempty ι›
  obtain ⟨used, rest, rfl, rfl, -⟩ := h i₀ hrun
  refine ⟨used, rest, rfl, rfl, fun i => ?_⟩
  obtain ⟨used', rest', hinput, hcursor, hread⟩ := h i hrun
  simp only [Cursor.mk.injEq] at hcursor
  obtain ⟨-, rfl⟩ := hcursor
  rw [List.append_cancel_right hinput]
  exact hread

/-- Decoders that ask for their offset may be given different ones. -/
lemma position_bind {f g : Nat → Decoder β} (hf : ∀ o o', Agrees (f o) (g o')) :
    Agrees (position >>= f) (position >>= g) := by
  intro offset input b c h
  obtain ⟨used, rest, hinput, hcursor, hread⟩ := reads_all (hf offset) h
  exact ⟨used, rest, hinput, hcursor, Reads.position_bind hread⟩

/-- A decoder may look at the next byte before it takes it. -/
lemma peek_bind {f g : UInt8 → Decoder β} (hf : ∀ b, Agrees (f b) (g b))
    (hempty : ∀ b, ∃ e c, g b ⟨0, []⟩ = .error e c) : Agrees (peek >>= f) (peek >>= g) := by
  intro offset input a c h
  cases input with
  | nil => cases h
  | cons b input =>
    obtain ⟨used, rest, hinput, rfl, hread⟩ := hf b h
    cases used with
    | nil => exact absurd (hread.length_pos (hempty b)) (Nat.lt_irrefl 0)
    | cons x used =>
      cases hinput
      exact ⟨b :: used, rest, rfl, rfl, hread.peek_bind⟩

lemma parseFault {offset : Nat} {fault : ParseFault} : Agrees (parseFault offset fault) e := by
  intro o input a c h
  cases h

lemma lexFault {offset : Nat} {fault : LexFault} : Agrees (lexFault offset fault) e := by
  intro o input a c h
  cases h

end Agrees

/-! ### Bytes, integers and names -/

lemma agrees_byte : Agrees byte byte := by
  intro offset input b c h
  cases input with
  | nil => cases h
  | cons x input =>
    cases h
    exact ⟨[b], input, rfl, rfl, fun _ _ => rfl⟩

/-- What `take` gives are the first bytes of the input. -/
lemma eq_of_take_run {n offset : Nat} {input bytes : List UInt8} {c : Cursor}
    (h : take n ⟨offset, input⟩ = .ok bytes c) :
    ∃ rest, input = bytes ++ rest ∧ c = ⟨offset + bytes.length, rest⟩ ∧ bytes.length = n := by
  rw [take, bind_run_ok (get_run _)] at h
  split at h
  case isTrue hroom =>
    cases h
    have hlength : (input.take n).length = n := List.length_take_of_le hroom
    refine ⟨input.drop n, (List.take_append_drop n input).symm, ?_, hlength⟩
    rw [hlength]
    rfl
  case isFalse => cases h

lemma agrees_take (n : Nat) : Agrees (take n) (take n) := by
  intro offset input bytes c h
  obtain ⟨rest, hinput, hcursor, rfl⟩ := eq_of_take_run h
  exact ⟨bytes, rest, hinput, hcursor, reads_take bytes⟩

lemma agrees_unsignedFrom (start start' bits room shift value : Nat) :
    Agrees (unsignedFrom start bits room shift value)
      (unsignedFrom start' bits room shift value) := by
  induction room generalizing shift value with
  | zero => exact .lexFault
  | succ room ih =>
    refine agrees_byte.bind fun b => ?_
    dsimp only
    split
    · exact .lexFault
    · split
      · exact ih _ _
      · exact .pure _

lemma agrees_signedFrom (start start' bits room shift value : Nat) :
    Agrees (signedFrom start bits room shift value) (signedFrom start' bits room shift value) := by
  induction room generalizing shift value with
  | zero => exact .lexFault
  | succ room ih =>
    refine agrees_byte.bind fun b => ?_
    dsimp only
    split
    · exact ih _ _
    · split
      · exact .pure _
      · split
        · exact .pure _
        · exact .lexFault

lemma agrees_u32 : Agrees u32 u32 :=
  .position_bind fun start start' => agrees_unsignedFrom start start' _ _ _ _

lemma agrees_signed (bits : Nat) : Agrees (signed bits) (signed bits) :=
  .position_bind fun start start' => agrees_signedFrom start start' _ _ _ _

lemma agrees_name : Agrees name name := by
  refine agrees_u32.bind fun length => .position_bind fun start start' => ?_
  refine (agrees_take length).bind fun bytes => ?_
  split
  · exact .pure _
  · exact .lexFault

/-! ### Vectors and bodies of a declared size -/

section

variable {α : Type} {item : Decoder α} (h : Agrees item item)

include h

/-- Items that cannot be read from nothing take at least a byte each. -/
lemma repeated_local (hempty : ∃ e c, item ⟨0, []⟩ = .error e c) {n offset : Nat}
    {input : List UInt8} {items : List α} {c : Cursor}
    (hrun : repeated item n ⟨offset, input⟩ = .ok items c) :
    ∃ used rest, input = used ++ rest ∧ c = ⟨offset + used.length, rest⟩ ∧
      Reads (repeated item n) used items ∧ n ≤ used.length := by
  induction n generalizing offset input items c with
  | zero =>
    cases hrun
    exact ⟨[], input, rfl, rfl, Reads.pure [], Nat.le_refl 0⟩
  | succ n ih =>
    obtain ⟨a, c₁, ha, hrest⟩ := of_bind_run_ok hrun
    obtain ⟨xs, rest, rfl, rfl, hxs⟩ := h ha
    obtain ⟨more, c₂, hmore, hpure⟩ := of_bind_run_ok hrest
    obtain ⟨ys, rest, rfl, rfl, hys, hcount⟩ := ih hmore
    cases hpure
    have hpos := hxs.length_pos hempty
    refine ⟨xs ++ ys, rest, (List.append_assoc ..).symm, ?_, hxs.bind (hys.map (a :: ·)), ?_⟩
    · rw [List.length_append, Nat.add_assoc]
    · rw [List.length_append]
      omega

/-- The length of a vector is compared with all that is left of the input, but the items that were
read are enough for it. -/
lemma agrees_vector (hempty : ∃ e c, item ⟨0, []⟩ = .error e c) :
    Agrees (vector item) (vector item) := by
  refine agrees_u32.bind fun length offset input items c hrun => ?_
  rw [bind_run_ok (get_run _)] at hrun
  split at hrun
  · cases hrun
  · obtain ⟨used, rest, rfl, rfl, hread, hcount⟩ := repeated_local h hempty hrun
    refine ⟨used, rest, rfl, rfl, fun o more => ?_⟩
    have hroom : ¬ (Cursor.mk o (used ++ more)).remaining < length := by
      rw [Cursor.remaining, List.length_append]
      omega
    rw [bind_run_ok (get_run _), if_neg hroom]
    exact hread o more

end

/-- What is left of the input is compared with the declared size, but the body that was read is
enough for it. -/
lemma agrees_sizePrefixed {α : Type} {body : Decoder α} (h : Agrees body body) :
    Agrees (sizePrefixed body) (sizePrefixed body) := by
  refine agrees_u32.bind fun size offset input a c hrun => ?_
  rw [exactly, exactlyOn, bind_run_ok (get_run _)] at hrun
  split at hrun
  · cases hrun
  · obtain ⟨b, c₁, hbody, hrest⟩ := of_bind_run_ok hrun
    obtain ⟨used, rest, rfl, rfl, hread⟩ := h hbody
    rw [bind_run_ok (get_run _)] at hrest
    split at hrest
    case isTrue hsize =>
      cases hrest
      refine ⟨used, rest, rfl, rfl, fun o more => ?_⟩
      simp only [id, Nat.add_sub_cancel_left] at hsize
      exact exactlyOn_run (hread o more) (by simp [Cursor.remaining, hsize]) (by simp [hsize])
    case isFalse => cases hrest

/-! ### Instructions that are no constructs -/

lemma agrees_valType : Agrees valType valType := by
  refine .position_bind fun o o' => agrees_byte.bind fun b => ?_
  split
  · exact .pure _
  · exact .parseFault

lemma agrees_refType : Agrees refType refType := by
  refine .position_bind fun o o' => agrees_valType.bind fun ty => ?_
  split
  · exact .pure _
  · exact .parseFault

lemma agrees_memArg : Agrees memArg memArg :=
  agrees_u32.bind fun _ => agrees_u32.map _

lemma agrees_zeroMemory : Agrees zeroMemory zeroMemory := by
  refine .position_bind fun o o' => agrees_byte.bind fun b => ?_
  split
  · exact .pure _
  · exact .parseFault

lemma agrees_blockType : Agrees blockType blockType := by
  refine .position_bind fun o o' => .peek_bind (fun b => ?_) fun b => ?_
  · split
    · exact agrees_byte.map _
    · split
      · exact agrees_byte.map _
      · refine (agrees_signed 33).bind fun index => ?_
        split
        · exact .pure _
        · exact .parseFault
  · split
    · exact ⟨_, _, rfl⟩
    · cases ValType.ofByte? b <;> exact ⟨_, _, rfl⟩

lemma agrees_extended (o o' : Nat) : Agrees (extended o) (extended o') := by
  refine agrees_u32.bind fun sub => ?_
  split
  case h_1 => exact agrees_u32.bind fun _ => agrees_zeroMemory.map _
  case h_3 => exact agrees_zeroMemory.bind fun _ => agrees_zeroMemory.map _
  case h_4 => exact agrees_zeroMemory.map _
  case h_5 | h_7 => exact agrees_u32.bind fun _ => agrees_u32.map _
  case h_2 | h_6 | h_8 | h_9 | h_10 => exact agrees_u32.map _
  case h_11 =>
    split
    · exact .pure _
    · exact .parseFault

lemma agrees_tabled (o o' : Nat) (opcode : UInt8) :
    Agrees (tabled o opcode) (tabled o' opcode) := by
  rw [tabled, tabled]
  split
  · exact agrees_memArg.map _
  · split
    · exact agrees_memArg.map _
    · split
      · exact .pure _
      · exact .parseFault

lemma agrees_plainInstr (o o' : Nat) (opcode : UInt8) :
    Agrees (plainInstr o opcode) (plainInstr o' opcode) := by
  rw [plainInstr, plainInstr]
  split
  case h_1 | h_2 | h_6 | h_9 | h_10 | h_26 => exact .pure _
  case h_3 | h_4 | h_7 | h_12 | h_13 | h_14 | h_15 | h_16 | h_17 | h_18 | h_27 =>
    exact agrees_u32.map _
  case h_5 => exact (agrees_vector agrees_u32 ⟨_, _, rfl⟩).bind fun _ => agrees_u32.map _
  case h_8 => exact agrees_u32.bind fun _ => agrees_u32.map _
  case h_11 =>
    refine (agrees_vector agrees_valType ⟨_, _, rfl⟩).bind fun types => ?_
    split
    · exact .pure _
    · exact .parseFault
  case h_19 | h_20 => exact agrees_zeroMemory.map _
  case h_21 => exact ((agrees_signed 32).map _).map _
  case h_22 => exact ((agrees_signed 64).map _).map _
  case h_23 => exact ((agrees_take 4).map _).map _
  case h_24 => exact ((agrees_take 8).map _).map _
  case h_25 => exact agrees_refType.map _
  case h_28 => exact agrees_extended o o'
  case h_29 => exact agrees_tabled o o' opcode

/-! ### Expressions -/

/-- An open construct without the place of its opcode, which is used in errors only. -/
def OpenConstruct.core (top : OpenConstruct) : Construct × BlockType × List Instr :=
  (top.construct, top.ty, top.outer)

/-- Reading gives the same expression from any bound that the bytes pay for, at any place and with
any rest behind the bytes. -/
def ReadsFrom (pending : List OpenConstruct) (done : List Instr) (bytes : List UInt8)
    (body : List Instr) : Prop :=
  ∀ pending' : List OpenConstruct, pending'.map OpenConstruct.core = pending.map OpenConstruct.core →
    ∀ more offset rest, exprFrom (more + bytes.length) pending' done ⟨offset, bytes ++ rest⟩ =
      .ok body ⟨offset + bytes.length, rest⟩

namespace ReadsFrom

variable {pending below : List OpenConstruct} {done body : List Instr} {xs ys : List UInt8}

lemma ended : ReadsFrom [] done [0x0b] done.reverse := by
  intro pending hcore more offset rest
  rw [List.map_nil, List.map_eq_nil_iff] at hcore
  subst hcore
  exact exprFrom_end

lemma opened {opcode : UInt8} {construct : Construct} {ty : BlockType} {start : Nat}
    (hopcode : Construct.ofOpcode? opcode = some construct) (hread : Reads blockType xs ty)
    (hdepth : pending.length < maxNesting)
    (h : ReadsFrom ({ construct, ty, offset := start, outer := done } :: pending) [] ys body) :
    ReadsFrom pending done (opcode :: (xs ++ ys)) body := by
  intro pending' hcore more offset rest
  have hlength : pending'.length = pending.length := by
    simpa using congrArg List.length hcore
  have hsteps : more + (opcode :: (xs ++ ys)).length = more + xs.length + ys.length + 1 := by
    rw [List.length_cons, List.length_append]
    omega
  rw [hsteps, List.cons_append, List.append_assoc, exprFrom_open hopcode hread (by omega),
    h _ (by rw [List.map_cons, List.map_cons, hcore]; rfl), List.length_cons, List.length_append]
  congr 2
  omega

lemma second {ty : BlockType} {start : Nat} {outer : List Instr}
    (h : ReadsFrom (⟨.ifElse done.reverse, ty, start, outer⟩ :: below) [] ys body) :
    ReadsFrom (⟨.ifThen, ty, start, outer⟩ :: below) done (0x05 :: ys) body := by
  intro pending' hcore more offset rest
  obtain ⟨top, below', rfl, htop, hbelow⟩ := List.map_eq_cons_iff.1 hcore
  obtain ⟨construct, ty', start', outer'⟩ := top
  cases htop
  rw [List.length_cons, ← Nat.add_assoc, List.cons_append, exprFrom_else,
    h _ (by rw [List.map_cons, List.map_cons, hbelow]; rfl)]
  congr 2
  omega

lemma closed {top : OpenConstruct}
    (h : ReadsFrom below (top.construct.close top.ty done.reverse :: top.outer) ys body) :
    ReadsFrom (top :: below) done (0x0b :: ys) body := by
  intro pending' hcore more offset rest
  obtain ⟨top', below', rfl, htop, hbelow⟩ := List.map_eq_cons_iff.1 hcore
  simp only [OpenConstruct.core, Prod.mk.injEq] at htop
  obtain ⟨hconstruct, hty, houter⟩ := htop
  rw [List.length_cons, ← Nat.add_assoc, List.cons_append, exprFrom_close, hconstruct, hty, houter,
    h _ hbelow]
  congr 2
  omega

lemma plain {instr : Instr} (hplain : ReadsPlain xs instr)
    (h : ReadsFrom pending (instr :: done) ys body) : ReadsFrom pending done (xs ++ ys) body := by
  intro pending' hcore more offset rest
  -- the opcode pays for the step, so the arguments only add to the bound
  have hpos : 0 < xs.length := by
    obtain ⟨opcode, args, rfl, -⟩ := hplain
    simp
  have hsteps : more + (xs ++ ys).length = more + (xs.length - 1) + ys.length + 1 := by
    rw [List.length_append]
    omega
  rw [hsteps, List.append_assoc, exprFrom_plain hplain, h _ hcore, List.length_append,
    Nat.add_assoc]

end ReadsFrom

/-- Expressions are read with the rest of the input as the bound on the number of steps.  No more
steps are made than there are bytes taken, so any bound that these bytes pay for will do. -/
lemma exprFrom_local {steps : Nat} {pending : List OpenConstruct} {done : List Instr} {offset : Nat}
    {input : List UInt8} {body : List Instr} {c : Cursor}
    (hrun : exprFrom steps pending done ⟨offset, input⟩ = .ok body c) :
    ∃ used rest, input = used ++ rest ∧ c = ⟨offset + used.length, rest⟩ ∧
      ReadsFrom pending done used body := by
  induction steps generalizing pending done offset input with
  | zero => cases hrun
  | succ steps ih =>
    cases input with
    | nil => cases hrun
    | cons opcode input =>
      rw [exprFrom, exprStep, bind_run_ok (position_run ..), bind_run_ok (byte_run ..)] at hrun
      -- the opcode opens a construct, begins a second arm, ends something, or is an instruction
      cases hopens : Construct.ofOpcode? opcode with
      | some construct =>
        rw [hopens] at hrun
        dsimp only at hrun
        split at hrun
        · cases hrun
        case isFalse hroom =>
          obtain ⟨ty, c₁, hty, hrest⟩ := of_bind_run_ok hrun
          obtain ⟨xs, rest, rfl, rfl, hread⟩ := agrees_blockType hty
          obtain ⟨ys, rest, rfl, rfl, hys⟩ := ih hrest
          refine ⟨opcode :: (xs ++ ys), rest, by simp, ?_, hys.opened hopens hread (by omega)⟩
          simp only [List.length_cons, List.length_append]
          congr 1
          omega
      | none =>
        rw [hopens] at hrun
        dsimp only at hrun
        split at hrun
        case isTrue helse =>
          subst helse
          unfold atElse at hrun
          split at hrun
          · cases hrun
          case h_2 top below =>
            obtain ⟨construct, ty, start, outer⟩ := top
            cases construct with
            | ifThen =>
              obtain ⟨ys, rest, rfl, rfl, hys⟩ := ih hrun
              refine ⟨0x05 :: ys, rest, rfl, ?_, hys.second⟩
              rw [List.length_cons, Nat.add_assoc, Nat.add_comm 1]
            | _ => cases hrun
        case isFalse helse =>
          split at hrun
          case isTrue hend =>
            subst hend
            unfold atEnd at hrun
            split at hrun
            · cases hrun
              exact ⟨[0x0b], input, rfl, rfl, .ended⟩
            · obtain ⟨ys, rest, rfl, rfl, hys⟩ := ih hrun
              refine ⟨0x0b :: ys, rest, rfl, ?_, hys.closed⟩
              rw [List.length_cons, Nat.add_assoc, Nat.add_comm 1]
          case isFalse hend =>
            obtain ⟨instr, c₁, hinstr, hrest⟩ := of_bind_run_ok hrun
            obtain ⟨args, rest, rfl, rfl, hread⟩ :=
              Agrees.reads_all (fun o => agrees_plainInstr offset o opcode) hinstr
            obtain ⟨ys, rest, rfl, rfl, hys⟩ := ih hrest
            have hplain : ReadsPlain (opcode :: args) instr :=
              ⟨opcode, args, rfl, ⟨hopens, helse, hend⟩, hread⟩
            refine ⟨(opcode :: args) ++ ys, rest, by simp, ?_, hys.plain hplain⟩
            simp only [List.length_cons, List.length_append]
            congr 1
            omega

lemma agrees_expr : Agrees expr expr := by
  intro offset input body c hrun
  rw [expr, bind_run_ok (get_run _)] at hrun
  obtain ⟨used, rest, rfl, rfl, hread⟩ := exprFrom_local hrun
  refine ⟨used, rest, rfl, rfl, fun o more => ?_⟩
  have hsteps : (Cursor.mk o (used ++ more)).remaining = more.length + used.length := by
    rw [Cursor.remaining, List.length_append, Nat.add_comm]
  rw [expr, bind_run_ok (get_run _), hsteps, hread [] rfl]

lemma agrees_constExpr : Agrees constExpr constExpr := by
  refine .position_bind fun o o' => agrees_expr.bind fun body => ?_
  split
  · exact .pure _
  · intro offset input a c hrun
    cases hrun

/-! ### Items of sections -/

lemma agrees_limits : Agrees limits limits := by
  refine .position_bind fun o o' => agrees_byte.bind fun flag => ?_
  split
  · exact agrees_u32.map _
  · exact agrees_u32.bind fun _ => agrees_u32.map _
  · exact .parseFault

lemma agrees_tableType : Agrees tableType tableType :=
  agrees_refType.bind fun _ => agrees_limits.map _

lemma agrees_globalType : Agrees globalType globalType := by
  refine agrees_valType.bind fun ty => .position_bind fun o o' => agrees_byte.bind fun flag => ?_
  split
  · exact .pure _
  · exact .pure _
  · exact .parseFault

lemma agrees_valTypes : Agrees (vector valType) (vector valType) :=
  agrees_vector agrees_valType ⟨_, _, rfl⟩

lemma agrees_funcType : Agrees funcType funcType := by
  refine .position_bind fun o o' => agrees_byte.bind fun form => ?_
  split
  · exact agrees_valTypes.bind fun _ => agrees_valTypes.map _
  · exact .parseFault

lemma agrees_importDesc : Agrees importDesc importDesc := by
  refine .position_bind fun o o' => agrees_byte.bind fun b => ?_
  split
  · exact agrees_u32.map _
  · exact agrees_tableType.map _
  · exact agrees_limits.map _
  · exact agrees_globalType.map _
  · exact .parseFault

lemma agrees_importItem : Agrees importItem importItem :=
  agrees_name.bind fun _ => agrees_name.bind fun _ => agrees_importDesc.map _

lemma agrees_globalDef : Agrees globalDef globalDef :=
  agrees_globalType.bind fun _ => agrees_constExpr.map _

lemma agrees_exportItem : Agrees exportItem exportItem := by
  refine agrees_name.bind fun name => .position_bind fun o o' => agrees_byte.bind fun b => ?_
  split
  · exact agrees_u32.map _
  · exact .parseFault

lemma agrees_elemKind : Agrees elemKind elemKind := by
  refine .position_bind fun o o' => agrees_byte.bind fun b => ?_
  split
  · exact .pure _
  · exact .parseFault

lemma agrees_funcItems : Agrees funcItems funcItems :=
  agrees_vector (agrees_u32.map _) ⟨_, _, rfl⟩

lemma agrees_exprItems : Agrees (vector constExpr) (vector constExpr) :=
  agrees_vector agrees_constExpr ⟨_, _, rfl⟩

lemma agrees_elemSegment : Agrees elemSegment elemSegment := by
  refine .position_bind fun o o' => agrees_u32.bind fun flags => ?_
  split
  case h_1 => exact agrees_constExpr.bind fun _ => agrees_funcItems.map _
  case h_2 | h_4 => exact agrees_elemKind.bind fun _ => agrees_funcItems.map _
  case h_3 =>
    exact agrees_u32.bind fun _ => agrees_constExpr.bind fun _ => agrees_elemKind.bind fun _ =>
      agrees_funcItems.map _
  case h_5 => exact agrees_constExpr.bind fun _ => agrees_exprItems.map _
  case h_6 | h_8 => exact agrees_refType.bind fun _ => agrees_exprItems.map _
  case h_7 =>
    exact agrees_u32.bind fun _ => agrees_constExpr.bind fun _ => agrees_refType.bind fun _ =>
      agrees_exprItems.map _
  case h_9 => exact .parseFault

lemma agrees_dataMode : Agrees dataMode dataMode := by
  refine .position_bind fun o o' => agrees_u32.bind fun flags => ?_
  split
  · exact agrees_constExpr.map _
  · exact .pure _
  · exact agrees_u32.bind fun _ => agrees_constExpr.map _
  · exact .parseFault

lemma agrees_dataSegment : Agrees dataSegment dataSegment :=
  agrees_dataMode.bind fun _ => agrees_u32.bind fun length => (agrees_take length).map _

lemma agrees_localDecls : Agrees localDecls localDecls := by
  have hgroup : Agrees localGroup localGroup := agrees_u32.bind fun _ => agrees_valType.map _
  refine .position_bind fun o o' => (agrees_vector hgroup ⟨_, _, rfl⟩).bind fun groups => ?_
  dsimp only
  split
  · exact .parseFault
  · exact .pure _

lemma agrees_funcBody (type : Nat) : Agrees (funcBody type) (funcBody type) :=
  agrees_sizePrefixed (agrees_localDecls.bind fun _ => agrees_expr.map _)

end WasmAot.Binary
