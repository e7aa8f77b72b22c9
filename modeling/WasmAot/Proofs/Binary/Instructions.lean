/-
# Reading instructions and expressions

The opcodes and immediates that the encoding writes for an instruction are read as this instruction.
An expression is read with the open constructs on a stack; the invariant is that reading the bytes
of a sequence adds the sequence to what was read before in the innermost open construct, and leaves
the constructs around it as they are.
-/
import WasmAot.Proofs.Binary.Reading

namespace WasmAot.Binary

/-! ### Types -/

lemma ofByte?_toByte (ty : ValType) : ValType.ofByte? ty.toByte = some ty := by
  cases ty <;> rfl

/-- The bytes of the value types are one-byte negative numbers. -/
lemma toByte_range (ty : ValType) : 64 < ty.toByte.toNat ∧ ty.toByte.toNat < 128 := by
  cases ty <;> decide

lemma reads_valType (ty : ValType) : Reads valType [ty.toByte] ty := by
  refine Reads.position_bind fun offset => Reads.byte_bind ?_
  rw [ofByte?_toByte]
  exact Reads.pure ty

lemma reads_refType {ty : ValType} (h : ty.isRef) : Reads refType [ty.toByte] ty := by
  refine Reads.position_bind fun offset => (reads_valType ty).finish ?_
  rw [if_pos h]
  exact Reads.pure ty

lemma reads_valTypes {types : List ValType} (h : FitsU32 types.length) :
    Reads (vector valType) (vectorBytes (fun ty => [ty.toByte]) types) types :=
  reads_vector h (fun ty _ => reads_valType ty) ⟨_, _, rfl⟩

/-- A decoder may look at the first of its bytes before it reads them. -/
lemma Reads.peek_bind {β : Type} {f : UInt8 → Decoder β} {x : UInt8} {ys : List UInt8} {b : β}
    (hf : Reads (f x) (x :: ys) b) : Reads (peek >>= f) (x :: ys) b :=
  hf

/-- The first byte of a number that is not negative is no value type and not the mark of no type. -/
lemma signedBytes_natCast (n : Nat) :
    ∃ first rest, signedBytes n = first :: rest ∧ (first.toNat < 64 ∨ 128 ≤ first.toNat) := by
  rw [signedBytes]
  split
  · refine ⟨_, _, rfl, Or.inl ?_⟩
    rw [UInt8.toNat_ofNat_of_lt' (by simp only [UInt8.size]; omega)]
    omega
  · refine ⟨_, _, rfl, Or.inr ?_⟩
    rw [UInt8.toNat_ofNat_of_lt' (by simp only [UInt8.size]; omega)]
    omega

lemma ofByte?_eq_none {b : UInt8} (h : b.toNat < 64 ∨ 128 ≤ b.toNat) :
    ValType.ofByte? b = none := by
  rw [ValType.ofByte?, List.find?_eq_none]
  intro ty _ hty
  have hrange := toByte_range ty
  rw [decide_eq_true_eq] at hty
  rw [hty] at hrange
  omega

lemma reads_blockType {ty : BlockType} (h : ty.Encodable) :
    Reads blockType (blockTypeBytes ty) ty := by
  refine Reads.position_bind fun offset => ?_
  cases ty with
  | empty =>
    refine Reads.peek_bind ?_
    rw [if_pos rfl]
    exact Reads.byte_bind (Reads.pure _)
  | value ty =>
    have hne : ty.toByte ≠ 0x40 := by cases ty <;> decide
    refine Reads.peek_bind ?_
    rw [if_neg hne, ofByte?_toByte]
    exact Reads.byte_bind (Reads.pure _)
  | indexed index =>
    -- the first byte of an index is not the mark of the empty type, nor the byte of a type
    obtain ⟨first, rest, hbytes, hfirst⟩ := signedBytes_natCast index
    have hne : first ≠ 0x40 := by
      rintro rfl
      simp at hfirst
    have hread := @reads_signed 33 index (by decide) (by decide)
      (by simp only [fitsSigned_iff, BlockType.Encodable, FitsU32] at h ⊢; omega)
    rw [blockTypeBytes]
    rw [hbytes] at hread ⊢
    refine Reads.peek_bind ?_
    rw [if_neg hne, ofByte?_eq_none hfirst]
    refine hread.finish ?_
    rw [if_pos (Int.natCast_nonneg index)]
    exact Reads.pure _

/-! ### Instructions that are no constructs -/

lemma reads_memArg {arg : MemArg} (h : arg.Encodable) : Reads memArg (memArgBytes arg) arg :=
  (reads_u32 h.1).bind ((reads_u32 h.2).map (MemArg.mk arg.align))

lemma reads_zeroMemory : Reads zeroMemory [0x00] () :=
  Reads.position_bind fun _ => Reads.byte_bind (Reads.pure ())

/-- The bytes are an opcode that opens and closes nothing, and immediates, which are read as the
instruction. -/
def ReadsPlain (bytes : List UInt8) (instr : Instr) : Prop :=
  ∃ opcode args, bytes = opcode :: args ∧
    (Construct.ofOpcode? opcode = none ∧ opcode ≠ elseOpcode ∧ opcode ≠ endOpcode) ∧
    ∀ offset, Reads (plainInstr offset opcode) args instr

/-- A number below 128 is one byte; second opcodes and flags are such numbers. -/
lemma reads_small (n : Nat) (h : n < 128) : Reads u32 [UInt8.ofNat n] n := by
  have hread := @reads_u32 n (by simp only [FitsU32]; omega)
  rwa [unsignedBytes, if_pos h] at hread

lemma readsPlain_load {op : LoadOp} {arg : MemArg} (h : (Instr.load op arg).Encodable) :
    ReadsPlain (plainBytes (.load op arg)) (.load op arg) := by
  obtain ⟨hop, harg⟩ := h
  have hread := (reads_memArg harg).map (Instr.load op)
  unfold loadOpcode at hop
  split at hop
  case h_15 => exact absurd rfl hop
  all_goals exact ⟨_, _, rfl, by decide, fun _ => hread⟩

lemma readsPlain_store {op : StoreOp} {arg : MemArg} (h : (Instr.store op arg).Encodable) :
    ReadsPlain (plainBytes (.store op arg)) (.store op arg) := by
  obtain ⟨hop, harg⟩ := h
  have hread := (reads_memArg harg).map (Instr.store op)
  unfold storeOpcode at hop
  split at hop
  case h_10 => exact absurd rfl hop
  all_goals exact ⟨_, _, rfl, by decide, fun _ => hread⟩

lemma readsPlain_compare {ty : ValType} {op : CmpOp} (h : op.definedFor ty) :
    ReadsPlain (plainBytes (.compare ty op)) (.compare ty op) := by
  cases ty <;> cases op <;> cases h <;> exact ⟨_, _, rfl, by decide, fun _ => Reads.pure _⟩

lemma readsPlain_unary {ty : ValType} {op : UnOp} (h : op.definedFor ty) :
    ReadsPlain (plainBytes (.unary ty op)) (.unary ty op) := by
  cases ty <;> cases op <;> cases h <;> exact ⟨_, _, rfl, by decide, fun _ => Reads.pure _⟩

lemma readsPlain_binary {ty : ValType} {op : BinOp} (h : op.definedFor ty) :
    ReadsPlain (plainBytes (.binary ty op)) (.binary ty op) := by
  cases ty <;> cases op <;> cases h <;> exact ⟨_, _, rfl, by decide, fun _ => Reads.pure _⟩

lemma readsPlain_convert (op : CvtOp) : ReadsPlain (plainBytes (.convert op)) (.convert op) := by
  cases op <;>
    first
    | exact ⟨_, _, rfl, by decide, fun _ => Reads.pure _⟩
    | exact ⟨_, _, rfl, by decide, fun _ => (reads_small _ (by decide)).finish (Reads.pure _)⟩

/-- The constructs, which have bodies. -/
def isConstruct : Instr → Bool
  | .block .. | .loop .. | .ifElse .. => true
  | _ => false

lemma readsPlain {instr : Instr} (hplain : isConstruct instr = false) (h : instr.Encodable) :
    ReadsPlain (plainBytes instr) instr := by
  cases instr with
  | block | loop | ifElse => cases hplain
  | unreachable | nop | ret | drop | refIsNull =>
    exact ⟨_, _, rfl, by decide, fun _ => Reads.pure _⟩
  | br => exact ⟨_, _, rfl, by decide, fun _ => (reads_u32 h).map Instr.br⟩
  | brIf => exact ⟨_, _, rfl, by decide, fun _ => (reads_u32 h).map Instr.brIf⟩
  | brTable targets default =>
    obtain ⟨hcount, htargets, hdefault⟩ := h
    have htargets := reads_vector hcount (fun t ht => reads_u32 (htargets t ht)) ⟨_, _, rfl⟩
    exact ⟨_, _, rfl, by decide, fun _ =>
      htargets.bind ((reads_u32 hdefault).map (Instr.brTable targets))⟩
  | call => exact ⟨_, _, rfl, by decide, fun _ => (reads_u32 h).map Instr.call⟩
  | callIndirect type =>
    exact ⟨_, _, rfl, by decide, fun _ =>
      (reads_u32 h.1).bind ((reads_u32 h.2).map (Instr.callIndirect type))⟩
  | refNull => exact ⟨_, _, rfl, by decide, fun _ => (reads_refType h).map Instr.refNull⟩
  | refFunc => exact ⟨_, _, rfl, by decide, fun _ => (reads_u32 h).map Instr.refFunc⟩
  | select ty =>
    cases ty with
    | none => exact ⟨_, _, rfl, by decide, fun _ => Reads.pure _⟩
    | some ty =>
      have htypes := @reads_valTypes [ty] (show 1 < 2 ^ 32 by decide)
      exact ⟨_, _, rfl, by decide, fun _ => htypes.finish (Reads.pure _)⟩
  | localGet => exact ⟨_, _, rfl, by decide, fun _ => (reads_u32 h).map Instr.localGet⟩
  | localSet => exact ⟨_, _, rfl, by decide, fun _ => (reads_u32 h).map Instr.localSet⟩
  | localTee => exact ⟨_, _, rfl, by decide, fun _ => (reads_u32 h).map Instr.localTee⟩
  | globalGet => exact ⟨_, _, rfl, by decide, fun _ => (reads_u32 h).map Instr.globalGet⟩
  | globalSet => exact ⟨_, _, rfl, by decide, fun _ => (reads_u32 h).map Instr.globalSet⟩
  | tableGet => exact ⟨_, _, rfl, by decide, fun _ => (reads_u32 h).map Instr.tableGet⟩
  | tableSet => exact ⟨_, _, rfl, by decide, fun _ => (reads_u32 h).map Instr.tableSet⟩
  | load => exact readsPlain_load h
  | store => exact readsPlain_store h
  | memorySize | memoryGrow =>
    exact ⟨_, _, rfl, by decide, fun _ => reads_zeroMemory.finish (Reads.pure _)⟩
  | i32Const => exact ⟨_, _, rfl, by decide, fun _ => (reads_i32 _).map Instr.i32Const⟩
  | i64Const => exact ⟨_, _, rfl, by decide, fun _ => (reads_i64 _).map Instr.i64Const⟩
  | f32Const => exact ⟨_, _, rfl, by decide, fun _ => (@reads_floatBits 4 _).map Instr.f32Const⟩
  | f64Const => exact ⟨_, _, rfl, by decide, fun _ => (@reads_floatBits 8 _).map Instr.f64Const⟩
  | compare => exact readsPlain_compare h
  | unary => exact readsPlain_unary h
  | binary => exact readsPlain_binary h
  | convert => exact readsPlain_convert _
  -- the instructions with a second opcode
  | memoryInit =>
    exact ⟨_, _, rfl, by decide, fun _ => (reads_small 8 (by decide)).bind
      ((reads_u32 h).bind (reads_zeroMemory.finish (Reads.pure _)))⟩
  | dataDrop =>
    exact ⟨_, _, rfl, by decide, fun _ => (reads_small 9 (by decide)).bind
      ((reads_u32 h).map Instr.dataDrop)⟩
  | memoryCopy =>
    exact ⟨_, _, rfl, by decide, fun _ => (reads_small 10 (by decide)).bind
      (reads_zeroMemory.bind (reads_zeroMemory.finish (Reads.pure _)))⟩
  | memoryFill =>
    exact ⟨_, _, rfl, by decide, fun _ => (reads_small 11 (by decide)).bind
      (reads_zeroMemory.finish (Reads.pure _))⟩
  | tableInit segment =>
    exact ⟨_, _, rfl, by decide, fun _ => (reads_small 12 (by decide)).bind
      ((reads_u32 h.1).bind ((reads_u32 h.2).map (Instr.tableInit segment)))⟩
  | elemDrop =>
    exact ⟨_, _, rfl, by decide, fun _ => (reads_small 13 (by decide)).bind
      ((reads_u32 h).map Instr.elemDrop)⟩
  | tableCopy dst =>
    exact ⟨_, _, rfl, by decide, fun _ => (reads_small 14 (by decide)).bind
      ((reads_u32 h.1).bind ((reads_u32 h.2).map (Instr.tableCopy dst)))⟩
  | tableGrow =>
    exact ⟨_, _, rfl, by decide, fun _ => (reads_small 15 (by decide)).bind
      ((reads_u32 h).map Instr.tableGrow)⟩
  | tableSize =>
    exact ⟨_, _, rfl, by decide, fun _ => (reads_small 16 (by decide)).bind
      ((reads_u32 h).map Instr.tableSize)⟩
  | tableFill =>
    exact ⟨_, _, rfl, by decide, fun _ => (reads_small 17 (by decide)).bind
      ((reads_u32 h).map Instr.tableFill)⟩

/-! ### One step of reading an expression -/

section

variable {pending below : List OpenConstruct} {done : List Instr} {steps offset : Nat}
  {rest : List UInt8}

lemma position_run (offset : Nat) (bytes : List UInt8) :
    position ⟨offset, bytes⟩ = .ok offset ⟨offset, bytes⟩ :=
  rfl

lemma byte_run (offset : Nat) (b : UInt8) (bytes : List UInt8) :
    byte ⟨offset, b :: bytes⟩ = .ok b ⟨offset + 1, bytes⟩ :=
  rfl

lemma exprFrom_open {opcode : UInt8} {construct : Construct} {bytes : List UInt8} {ty : BlockType}
    (hopcode : Construct.ofOpcode? opcode = some construct) (hty : Reads blockType bytes ty)
    (hdepth : pending.length < maxNesting) :
    exprFrom (steps + 1) pending done ⟨offset, opcode :: (bytes ++ rest)⟩ =
      exprFrom steps ({ construct, ty, offset, outer := done } :: pending) []
        ⟨offset + 1 + bytes.length, rest⟩ := by
  rw [exprFrom, exprStep, Stateful.bind_run_ok (position_run ..),
    Stateful.bind_run_ok (byte_run ..), hopcode]
  dsimp only
  rw [if_neg (Nat.not_le.2 hdepth), Stateful.bind_run_ok (hty ..)]

lemma exprFrom_else {ty : BlockType} {start : Nat} {outer : List Instr} :
    exprFrom (steps + 1) (⟨.ifThen, ty, start, outer⟩ :: below) done ⟨offset, 0x05 :: rest⟩ =
      exprFrom steps (⟨.ifElse done.reverse, ty, start, outer⟩ :: below) [] ⟨offset + 1, rest⟩ := by
  rw [exprFrom, exprStep, Stateful.bind_run_ok (position_run ..),
    Stateful.bind_run_ok (byte_run ..)]
  rfl

lemma exprFrom_close {top : OpenConstruct} :
    exprFrom (steps + 1) (top :: below) done ⟨offset, 0x0b :: rest⟩ =
      exprFrom steps below (top.construct.close top.ty done.reverse :: top.outer)
        ⟨offset + 1, rest⟩ := by
  rw [exprFrom, exprStep, Stateful.bind_run_ok (position_run ..),
    Stateful.bind_run_ok (byte_run ..)]
  rfl

lemma exprFrom_end :
    exprFrom (steps + 1) [] done ⟨offset, 0x0b :: rest⟩ = .ok done.reverse ⟨offset + 1, rest⟩ := by
  rw [exprFrom, exprStep, Stateful.bind_run_ok (position_run ..),
    Stateful.bind_run_ok (byte_run ..)]
  rfl

lemma exprFrom_plain {bytes : List UInt8} {instr : Instr} (h : ReadsPlain bytes instr) :
    exprFrom (steps + 1) pending done ⟨offset, bytes ++ rest⟩ =
      exprFrom steps pending (instr :: done) ⟨offset + bytes.length, rest⟩ := by
  obtain ⟨opcode, args, rfl, ⟨hopens, helse, hend⟩, hread⟩ := h
  rw [List.cons_append, exprFrom, exprStep, Stateful.bind_run_ok (position_run ..),
    Stateful.bind_run_ok (byte_run ..), hopens]
  dsimp only
  rw [if_neg helse, if_neg hend, Stateful.bind_run_ok (hread ..), List.length_cons, Nat.add_assoc,
    Nat.add_comm 1]

end

/-! ### Sequences -/

/-- Reading the bytes adds the instructions to the innermost sequence, whatever the constructs
around it are, if there are `depth` fewer of them than there may be.  It takes a number of steps
that the bytes pay for. -/
def Adds (bytes : List UInt8) (instrs : List Instr) (depth : Nat) : Prop :=
  ∃ steps ≤ bytes.length, ∀ pending : List OpenConstruct, pending.length + depth ≤ maxNesting →
    ∀ done more offset rest,
      exprFrom (more + steps) pending done ⟨offset, bytes ++ rest⟩ =
        exprFrom more pending (instrs.reverse ++ done) ⟨offset + bytes.length, rest⟩

namespace Adds

variable {xs ys : List UInt8} {instrs instrs' : List Instr} {depth depth' : Nat}

lemma mono (h : Adds xs instrs depth) (hle : depth ≤ depth') : Adds xs instrs depth' := by
  obtain ⟨steps, hsteps, hrun⟩ := h
  exact ⟨steps, hsteps, fun pending hpending => hrun pending (by omega)⟩

lemma nil : Adds [] [] depth :=
  ⟨0, Nat.le_refl 0, fun _ _ _ _ _ _ => rfl⟩

lemma append (h : Adds xs instrs depth) (h' : Adds ys instrs' depth) :
    Adds (xs ++ ys) (instrs ++ instrs') depth := by
  obtain ⟨steps, hsteps, hrun⟩ := h
  obtain ⟨steps', hsteps', hrun'⟩ := h'
  refine ⟨steps' + steps, by rw [List.length_append]; omega, ?_⟩
  intro pending hpending done more offset rest
  rw [← Nat.add_assoc, List.append_assoc, hrun pending hpending, hrun' pending hpending,
    List.reverse_append, List.append_assoc, List.length_append, Nat.add_assoc]

lemma plain {instr : Instr} (h : ReadsPlain xs instr) : Adds xs [instr] depth := by
  have hpos : 1 ≤ xs.length := by
    obtain ⟨opcode, args, rfl, -⟩ := h
    simp
  exact ⟨1, hpos, fun _ _ _ _ _ _ => exprFrom_plain h⟩

/-- A construct of one body: the mark at its end puts it behind what stands around it. -/
lemma construct {opcode : UInt8} {construct : Construct} {ty : BlockType}
    (hopcode : Construct.ofOpcode? opcode = some construct) (hty : ty.Encodable)
    (h : Adds xs instrs depth) :
    Adds (opcode :: (blockTypeBytes ty ++ xs ++ [0x0b])) [construct.close ty instrs]
      (1 + depth) := by
  obtain ⟨steps, hsteps, hrun⟩ := h
  refine ⟨1 + steps + 1, by simp; omega, ?_⟩
  intro pending hpending done more offset rest
  simp only [List.cons_append, List.append_assoc]
  rw [← Nat.add_assoc, exprFrom_open hopcode (reads_blockType hty) (by omega), ← Nat.add_assoc,
    hrun _ (by rw [List.length_cons]; omega), exprFrom_close, List.append_nil,
    List.reverse_reverse]
  simp only [List.length_cons, List.length_append, List.length_nil]
  congr 2
  omega

/-- A conditional with two arms. -/
lemma conditional {ty : BlockType} (hty : ty.Encodable) (h : Adds xs instrs depth)
    (h' : Adds ys instrs' depth) :
    Adds (0x04 :: (blockTypeBytes ty ++ xs ++ 0x05 :: ys ++ [0x0b])) [.ifElse ty instrs instrs']
      (1 + depth) := by
  obtain ⟨steps, hsteps, hrun⟩ := h
  obtain ⟨steps', hsteps', hrun'⟩ := h'
  refine ⟨1 + steps' + 1 + steps + 1, by simp; omega, ?_⟩
  intro pending hpending done more offset rest
  simp only [List.cons_append, List.append_assoc]
  rw [← Nat.add_assoc, exprFrom_open (show Construct.ofOpcode? 0x04 = some .ifThen from rfl)
      (reads_blockType hty) (by omega), ← Nat.add_assoc,
    hrun _ (by rw [List.length_cons]; omega), ← Nat.add_assoc, exprFrom_else, ← Nat.add_assoc,
    hrun' _ (by rw [List.length_cons]; omega), exprFrom_close, List.append_nil, List.append_nil,
    List.reverse_reverse, List.reverse_reverse]
  simp only [List.length_cons, List.length_append, List.length_nil]
  congr 2
  omega

end Adds

mutual

lemma instrBytes_adds (instr : Instr) (h : instr.Encodable) :
    Adds (instrBytes instr) [instr] instr.nesting := by
  cases instr with
  | block ty body =>
    rw [instrBytes, Instr.nesting]
    exact .construct (show Construct.ofOpcode? 0x02 = some .block from rfl) h.1
      (seqBytes_adds body h.2)
  | loop ty body =>
    rw [instrBytes, Instr.nesting]
    exact .construct (show Construct.ofOpcode? 0x03 = some .loop from rfl) h.1
      (seqBytes_adds body h.2)
  | ifElse ty thenBody elseBody =>
    obtain ⟨hty, hthen, helse⟩ := h
    have hfirst := (seqBytes_adds thenBody hthen).mono (Nat.le_max_left _ (nestingOf elseBody))
    have hsecond := (seqBytes_adds elseBody helse).mono (Nat.le_max_right (nestingOf thenBody) _)
    rw [instrBytes, Instr.nesting]
    cases elseBody with
    | nil =>
      -- an empty second arm is not written
      rw [List.isEmpty_nil, if_pos rfl, List.append_nil]
      exact .construct (show Construct.ofOpcode? 0x04 = some .ifThen from rfl) hty hfirst
    | cons instr rest =>
      rw [List.isEmpty_cons, if_neg Bool.false_ne_true]
      exact .conditional hty hfirst hsecond
  | _ =>
    simp only [instrBytes]
    exact .plain (readsPlain rfl h)

lemma seqBytes_adds (body : List Instr) (h : EncodableSeq body) :
    Adds (seqBytes body) body (nestingOf body) := by
  cases body with
  | nil =>
    rw [seqBytes]
    exact .nil
  | cons instr rest =>
    rw [seqBytes, nestingOf]
    have hinstr := (instrBytes_adds instr h.1).mono (Nat.le_max_left _ (nestingOf rest))
    have hrest := (seqBytes_adds rest h.2).mono (Nat.le_max_right instr.nesting _)
    exact hinstr.append hrest

end

/-- An expression is read as the sequence that it was written from. -/
lemma reads_expr {body : List Instr} (h : EncodableSeq body)
    (hnesting : nestingOf body ≤ maxNesting) : Reads expr (exprBytes body) body := by
  intro offset rest
  obtain ⟨steps, hsteps, hrun⟩ := seqBytes_adds body h
  have hremaining : (Cursor.mk offset (exprBytes body ++ rest)).remaining =
      (seqBytes body).length - steps + rest.length + 1 + steps := by
    simp only [Cursor.remaining, exprBytes, List.length_append, List.length_cons, List.length_nil]
    omega
  rw [expr, Stateful.bind_run_ok (Stateful.get_run _), hremaining, exprBytes, List.append_assoc,
    hrun [] (by simpa using hnesting), List.singleton_append, exprFrom_end, List.append_nil,
    List.reverse_reverse, List.length_append, List.length_singleton, Nat.add_assoc]

lemma constOf?_constInstr (c : ConstExpr) : constOf? [constInstr c] = some c := by
  cases c <;> rfl

lemma reads_constExpr {c : ConstExpr} (h : c.Encodable) : Reads constExpr (constBytes c) c := by
  have hnesting : nestingOf [constInstr c] = 0 := by cases c <;> rfl
  have hexpr : Reads expr (constBytes c) [constInstr c] :=
    reads_expr ⟨h, trivial⟩ (hnesting ▸ Nat.zero_le maxNesting)
  refine Reads.position_bind fun offset => hexpr.finish ?_
  rw [constOf?_constInstr]
  exact Reads.pure c

end WasmAot.Binary
