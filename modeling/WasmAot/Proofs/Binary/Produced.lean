/-
# What a reader produces

Whatever the input is, an expression that was read is one that can be written: its indices fit, its
operators and accesses have opcodes, and its constructs are not nested beyond the limit.  So the
conditions of `Module.Encodable` on function bodies leave nothing out that a reader can meet.

The argument follows the reader.  A decoder gives only values with some property if each of the
decoders that it is made of does; for expressions the property is kept for what was read so far, in
every construct that is still open.
-/
import WasmAot.Proofs.Binary.Encodable
import WasmAot.Proofs.Stateful

namespace WasmAot.Binary

/-- Every value that the decoder gives has the property. -/
def Gives {α : Type} (d : Decoder α) (P : α → Prop) : Prop :=
  ∀ ⦃c : Cursor⦄ ⦃a : α⦄ ⦃c' : Cursor⦄, d c = .ok a c' → P a

namespace Gives

variable {α β : Type} {d : Decoder α} {f : α → Decoder β} {P : α → Prop} {Q : β → Prop}

protected lemma pure {a : α} (h : P a) : Gives (pure a) P := by
  intro c b c' hrun
  cases hrun
  exact h

protected lemma bind (hd : Gives d P) (hf : ∀ a, P a → Gives (f a) Q) : Gives (d >>= f) Q := by
  intro c b c' hrun
  obtain ⟨a, c₁, ha, hb⟩ := Stateful.of_bind_run_ok hrun
  exact hf a (hd ha) hb

/-- Nothing has to be known of the first value. -/
lemma after (hf : ∀ a, Gives (f a) Q) : Gives (d >>= f) Q := by
  intro c b c' hrun
  obtain ⟨a, c₁, -, hb⟩ := Stateful.of_bind_run_ok hrun
  exact hf a hb

lemma map (hd : Gives d P) (g : α → β) (h : ∀ a, P a → Q (g a)) : Gives (do return g (← d)) Q :=
  hd.bind fun a ha => .pure (h a ha)

lemma parseFault {offset : Nat} {fault : ParseFault} : Gives (parseFault offset fault) P := by
  intro c a c' hrun
  cases hrun

lemma lexFault {offset : Nat} {fault : LexFault} : Gives (lexFault offset fault) P := by
  intro c a c' hrun
  cases hrun

end Gives

/-! ### Integers and vectors -/

lemma gives_unsignedFrom (start bits room shift value : Nat) :
    Gives (unsignedFrom start bits room shift value) (· < 2 ^ bits) := by
  induction room generalizing shift value with
  | zero => exact .lexFault
  | succ room ih =>
    rw [unsignedFrom_succ]
    refine .after fun b => ?_
    dsimp only
    split
    · exact .lexFault
    · split
      · exact ih _ _
      · exact .pure (Nat.lt_of_le_of_lt (Nat.mod_le _ _) (by omega))

lemma gives_u32 : Gives u32 FitsU32 :=
  .after fun start => gives_unsignedFrom start 32 _ _ _

lemma gives_signedFrom {bits : Nat} (hbits : bits ≤ wordBits) (start room shift value : Nat) :
    Gives (signedFrom start bits room shift value) (fun v => fitsSigned bits v) := by
  induction room generalizing shift value with
  | zero => exact .lexFault
  | succ room ih =>
    refine .after fun b => ?_
    split
    · exact ih _ _
    · rw [if_neg (by omega)]
      split
      case isTrue hfits => exact .pure hfits
      case isFalse => exact .lexFault

lemma gives_repeated {α : Type} {item : Decoder α} {P : α → Prop} (h : Gives item P) (n : Nat) :
    Gives (repeated item n) fun items => items.length = n ∧ ∀ a ∈ items, P a := by
  induction n with
  | zero => exact .pure ⟨rfl, nofun⟩
  | succ n ih =>
    refine h.bind fun a ha => ih.bind fun items hitems => .pure ?_
    exact ⟨congrArg (· + 1) hitems.1, List.forall_mem_cons.2 ⟨ha, hitems.2⟩⟩

lemma gives_vector {α : Type} {item : Decoder α} {P : α → Prop} (h : Gives item P) :
    Gives (vector item) fun items => FitsU32 items.length ∧ ∀ a ∈ items, P a := by
  refine gives_u32.bind fun n hn => .after fun c => ?_
  split
  · exact .after fun _ => .lexFault
  · intro c items c' hrun
    obtain ⟨hlength, hitems⟩ := gives_repeated h n hrun
    exact ⟨hlength ▸ hn, hitems⟩

/-! ### Instructions that are no constructs -/

lemma gives_refType : Gives refType fun ty => ty.isRef := by
  refine .after fun _ => .after fun ty => ?_
  split
  case isTrue href => exact .pure href
  case isFalse => exact .parseFault

lemma gives_memArg : Gives memArg MemArg.Encodable :=
  gives_u32.bind fun _ halign => gives_u32.bind fun _ hoffset => .pure ⟨halign, hoffset⟩

lemma gives_blockType : Gives blockType BlockType.Encodable := by
  refine .after fun _ => .after fun b => ?_
  split
  · exact .after fun _ => .pure trivial
  · split
    · exact .after fun _ => .pure trivial
    · have hsigned : Gives (signed 33) fun v => fitsSigned 33 v :=
        .after fun start => gives_signedFrom (by decide) start _ _ _
      refine hsigned.bind fun index hindex => ?_
      split
      · refine .pure ?_
        rw [fitsSigned_iff] at hindex
        simp only [BlockType.Encodable, FitsU32]
        omega
      · exact .parseFault

/-- An instruction that can be written and is no construct. -/
def Flat (instr : Instr) : Prop :=
  instr.Encodable ∧ instr.nesting = 0

/-- A numeric instruction whose operator is defined. -/
def isNumeric : Instr → Bool
  | .compare ty op => op.definedFor ty
  | .unary ty op => op.definedFor ty
  | .binary ty op => op.definedFor ty
  | .convert _ => true
  | _ => false

lemma flat_of_mem_numericInstrs {instr : Instr} (h : instr ∈ numericInstrs) : Flat instr := by
  have hall : numericInstrs.all isNumeric = true := rfl
  have hnumeric := List.all_eq_true.1 hall instr h
  cases instr with
  | compare | unary | binary => exact ⟨hnumeric, rfl⟩
  | convert => exact ⟨trivial, rfl⟩
  | _ => cases hnumeric

lemma mem_of_entryAt? {α : Type} {table : List α} {first code : Nat} {a : α}
    (h : entryAt? table first code = some a) : a ∈ table := by
  rw [entryAt?] at h
  split at h
  · exact List.mem_of_getElem? h
  · cases h

lemma gives_tabled (offset : Nat) (opcode : UInt8) : Gives (tabled offset opcode) Flat := by
  have hloads : ∀ op ∈ loadOps, loadOpcode op ≠ 0x00 := by decide
  have hstores : ∀ op ∈ storeOps, storeOpcode op ≠ 0x00 := by decide
  rw [tabled]
  split
  case h_1 op hop =>
    exact gives_memArg.map _ fun arg harg => ⟨⟨hloads op (mem_of_entryAt? hop), harg⟩, rfl⟩
  case h_2 =>
    split
    case h_1 op hop =>
      exact gives_memArg.map _ fun arg harg => ⟨⟨hstores op (mem_of_entryAt? hop), harg⟩, rfl⟩
    case h_2 =>
      split
      case h_1 instr hinstr => exact .pure (flat_of_mem_numericInstrs (mem_of_entryAt? hinstr))
      case h_2 => exact .parseFault

lemma gives_extended (offset : Nat) : Gives (extended offset) Flat := by
  refine .after fun sub => ?_
  split
  · exact gives_u32.bind fun n hn => .after fun _ => .pure ⟨hn, rfl⟩
  · exact gives_u32.map _ fun n hn => ⟨hn, rfl⟩
  · exact .after fun _ => .after fun _ => .pure ⟨trivial, rfl⟩
  · exact .after fun _ => .pure ⟨trivial, rfl⟩
  · exact gives_u32.bind fun n hn => gives_u32.map _ fun k hk => ⟨⟨hn, hk⟩, rfl⟩
  · exact gives_u32.map _ fun n hn => ⟨hn, rfl⟩
  · exact gives_u32.bind fun n hn => gives_u32.map _ fun k hk => ⟨⟨hn, hk⟩, rfl⟩
  · exact gives_u32.map _ fun n hn => ⟨hn, rfl⟩
  · exact gives_u32.map _ fun n hn => ⟨hn, rfl⟩
  · exact gives_u32.map _ fun n hn => ⟨hn, rfl⟩
  · split
    · exact .pure ⟨trivial, rfl⟩
    · exact .parseFault

lemma gives_plainInstr (offset : Nat) (opcode : UInt8) : Gives (plainInstr offset opcode) Flat := by
  rw [plainInstr]
  split
  case h_1 | h_2 | h_6 | h_9 | h_10 | h_26 => exact .pure ⟨trivial, rfl⟩
  case h_3 | h_4 | h_7 | h_12 | h_13 | h_14 | h_15 | h_16 | h_17 | h_18 | h_27 =>
    exact gives_u32.map _ fun n hn => ⟨hn, rfl⟩
  case h_5 =>
    exact (gives_vector gives_u32).bind fun targets htargets =>
      gives_u32.map _ fun default hdefault => ⟨⟨htargets.1, htargets.2, hdefault⟩, rfl⟩
  case h_8 =>
    exact gives_u32.bind fun type htype =>
      gives_u32.map _ fun table htable => ⟨⟨htype, htable⟩, rfl⟩
  case h_11 =>
    refine .after fun types => ?_
    split
    · exact .pure ⟨trivial, rfl⟩
    · exact .parseFault
  case h_19 | h_20 | h_21 | h_22 | h_23 | h_24 => exact .after fun _ => .pure ⟨trivial, rfl⟩
  case h_25 => exact gives_refType.map _ fun ty hty => ⟨hty, rfl⟩
  case h_28 => exact gives_extended offset
  case h_29 => exact gives_tabled offset opcode

/-! ### Expressions -/

/-- Instructions that can be written inside of `depth` constructs. -/
def Sits (depth : Nat) (instrs : List Instr) : Prop :=
  ∀ instr ∈ instrs, instr.Encodable ∧ instr.nesting + depth ≤ maxNesting

lemma encodableSeq_of_forall {body : List Instr} (h : ∀ instr ∈ body, instr.Encodable) :
    EncodableSeq body := by
  induction body with
  | nil => trivial
  | cons instr rest ih =>
    rw [List.forall_mem_cons] at h
    exact ⟨h.1, ih h.2⟩

lemma nestingOf_add_le {body : List Instr} {depth : Nat} (hdepth : depth ≤ maxNesting)
    (h : ∀ instr ∈ body, instr.nesting + depth ≤ maxNesting) :
    nestingOf body + depth ≤ maxNesting := by
  induction body with
  | nil => simpa [nestingOf] using hdepth
  | cons instr rest ih =>
    rw [List.forall_mem_cons] at h
    have := ih h.2
    rw [nestingOf]
    omega

namespace Sits

variable {depth : Nat} {instrs : List Instr} {instr : Instr}

lemma nil : Sits depth [] :=
  nofun

lemma cons (h : instr.Encodable) (hnesting : instr.nesting + depth ≤ maxNesting)
    (hrest : Sits depth instrs) : Sits depth (instr :: instrs) :=
  List.forall_mem_cons.2 ⟨⟨h, hnesting⟩, hrest⟩

lemma reverse (h : Sits depth instrs) : Sits depth instrs.reverse :=
  fun instr hmem => h instr (List.mem_reverse.1 hmem)

lemma encodableSeq (h : Sits depth instrs) : EncodableSeq instrs :=
  encodableSeq_of_forall fun instr hmem => (h instr hmem).1

lemma nestingOf_le (h : Sits depth instrs) (hdepth : depth ≤ maxNesting) :
    nestingOf instrs + depth ≤ maxNesting :=
  nestingOf_add_le hdepth fun instr hmem => (h instr hmem).2

end Sits

/-- What was read of a construct before its last body. -/
def Construct.Sits (depth : Nat) : Construct → Prop
  | .ifElse thenBody => Binary.Sits depth thenBody
  | .block | .loop | .ifThen => True

/-- What was read so far can be written: the innermost sequence, and around it, construct by
construct, the signature and the arm that is finished, and the sequence before it. -/
def Sound : List OpenConstruct → List Instr → Prop
  | [], done => Sits 0 done
  | top :: below, done =>
    Sits (below.length + 1) done ∧ top.ty.Encodable ∧ top.construct.Sits (below.length + 1) ∧
      Sound below top.outer

lemma Sound.cons {pending : List OpenConstruct} {done : List Instr} {instr : Instr}
    (h : Sound pending done) (hinstr : instr.Encodable)
    (hnesting : instr.nesting + pending.length ≤ maxNesting) : Sound pending (instr :: done) := by
  cases pending with
  | nil => exact Sits.cons hinstr hnesting h
  | cons top below => exact ⟨Sits.cons hinstr hnesting h.1, h.2⟩

/-- The innermost construct becomes an instruction of the sequence around it. -/
lemma Sound.close {top : OpenConstruct} {below : List OpenConstruct} {done : List Instr}
    (hdepth : (top :: below).length ≤ maxNesting) (h : Sound (top :: below) done) :
    Sound below (top.construct.close top.ty done.reverse :: top.outer) := by
  obtain ⟨construct, ty, offset, outer⟩ := top
  obtain ⟨hdone, hty, harm, houter⟩ := h
  have hbody := hdone.reverse.encodableSeq
  have hnesting := hdone.reverse.nestingOf_le hdepth
  cases construct with
  | block => exact houter.cons ⟨hty, hbody⟩ (by rw [Construct.close, Instr.nesting]; omega)
  | loop => exact houter.cons ⟨hty, hbody⟩ (by rw [Construct.close, Instr.nesting]; omega)
  | ifThen =>
    refine houter.cons ⟨hty, hbody, trivial⟩ ?_
    rw [Construct.close, Instr.nesting, nestingOf]
    omega
  | ifElse thenBody =>
    have hthen := Sits.nestingOf_le harm hdepth
    refine houter.cons ⟨hty, Sits.encodableSeq harm, hbody⟩ ?_
    rw [Construct.close, Instr.nesting]
    omega

lemma gives_exprFrom (steps : Nat) {pending : List OpenConstruct} {done : List Instr}
    (hdepth : pending.length ≤ maxNesting) (h : Sound pending done) :
    Gives (exprFrom steps pending done) (Sits 0) := by
  induction steps generalizing pending done with
  | zero => exact .after fun _ => .lexFault
  | succ steps ih =>
    rw [exprFrom, exprStep]
    refine .after fun offset => .after fun opcode => ?_
    split
    case h_1 construct hopens =>
      split
      · exact .parseFault
      case isFalse hroom =>
        -- the construct has no arm that is finished yet
        have harm : construct.Sits (pending.length + 1) := by
          cases construct with
          | ifElse => rw [Construct.ofOpcode?] at hopens; split at hopens <;> cases hopens
          | _ => trivial
        exact gives_blockType.bind fun ty hty =>
          ih (by rw [List.length_cons]; omega) ⟨.nil, hty, harm, h⟩
    case h_2 =>
      split
      · -- the first arm is finished
        unfold atElse
        split
        · exact .parseFault
        case h_2 top below =>
          split
          case h_1 => exact ih hdepth ⟨.nil, h.2.1, h.1.reverse, h.2.2.2⟩
          all_goals exact .parseFault
      · split
        · -- the expression or the innermost construct is finished
          unfold atEnd
          split
          case h_1 => exact .pure h.reverse
          case h_2 top below => exact ih (Nat.le_of_succ_le hdepth) (h.close hdepth)
        · refine (gives_plainInstr offset opcode).bind fun instr hinstr => ih hdepth ?_
          exact h.cons hinstr.1 (by rw [hinstr.2]; omega)

/-- An expression that was read can be written. -/
lemma encodable_of_expr {c c' : Cursor} {body : List Instr} (h : expr c = .ok body c') :
    EncodableSeq body ∧ nestingOf body ≤ maxNesting := by
  have hsits : Gives expr (Sits 0) :=
    .after fun c => gives_exprFrom _ (Nat.zero_le maxNesting) .nil
  exact ⟨(hsits h).encodableSeq, (hsits h).nestingOf_le (Nat.zero_le maxNesting)⟩

end WasmAot.Binary
