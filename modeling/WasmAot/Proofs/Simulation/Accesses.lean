/-
# Emitted loads and stores

The host loads and stores integers of 64 bits.  Where an instruction works on integers of 32 bits,
the emitted code casts on the way in and out.  The lines for a sequence of loads and stores do to the
memory what the instructions do, and give the same integers, because neither cast touches the bits
that matter.
-/
import WasmAot.Proofs.Semantics.Objects
import WasmAot.Proofs.Simulation.Relation

namespace WasmAot.Host

/-! ### Casts -/

variable {w : Nat}

/-- Only the bits below the narrower width are left after a cast. -/
lemma setWidth_widen (signed : Bool) (word : BitVec w) {narrow wide : Nat} (h : narrow ≤ wide) :
    (widen signed word wide).setWidth narrow = widen signed word narrow := by
  refine BitVec.eq_of_getLsbD_eq fun i hi => ?_
  have hwide : i < wide := by omega
  cases signed with
  | true =>
    simp only [widen, if_true, BitVec.getLsbD_setWidth, BitVec.getLsbD_signExtend, hi, hwide,
      decide_true, Bool.true_and]
  | false =>
    simp only [widen, Bool.false_eq_true, if_false, BitVec.getLsbD_setWidth, hi, hwide,
      decide_true, Bool.true_and]

lemma byteOf_setWidth (word : BitVec w) {bits k : Nat} (h : k < bits / 8) :
    byteOf (word.setWidth bits) k = byteOf word k := by
  refine UInt8.toBitVec_inj.1 (BitVec.eq_of_getLsbD_eq fun i hi => ?_)
  have hbit : 8 * k + i < bits := by omega
  rw [getLsbD_byteOf _ _ hi, getLsbD_byteOf _ _ hi, BitVec.getLsbD_setWidth, decide_eq_true hbit,
    Bool.true_and]

end WasmAot.Host

namespace WasmAot.Semantics

open Host

lemma replaces_withWord {bytes : Array UInt8} {addr bits : Nat} (word : BitVec bits)
    (h : addr + bits / 8 ≤ bytes.size) :
    Replaces bytes (withWord bytes addr word) addr (bits / 8) fun k => some (byteOf word k) where
  size_eq := Array.size_ofFn
  inside k hk := by
    have hplace : addr ≤ addr + k ∧ addr + k < addr + bits / 8 := by omega
    rw [withWord, Array.getElem?_ofFn, dif_pos (by omega), if_pos hplace, Nat.add_sub_cancel_left]
  outside k hk := by
    rw [withWord, Array.getElem?_ofFn]
    split
    · next hlt =>
      have hplace : ¬ (addr ≤ k ∧ k < addr + bits / 8) := by omega
      rw [if_neg hplace, Array.getElem?_eq_getElem hlt]
      rfl
    · next hge => rw [Array.getElem?_eq_none (Nat.not_lt.1 hge)]

/-- The host stores the low bits of its integer as a word. -/
lemma store_eq_withWord {m : Memory} {addr bits : Nat} (hbits : bits ∈ Memory.widths)
    (h : addr + bits / 8 ≤ m.bytes.size) (value : BitVec 64) :
    Memory.store value addr bits m =
      .ok () { m with bytes := withWord m.bytes addr (value.setWidth bits) } := by
  obtain ⟨m', hstore, hholds⟩ := Memory.store_holds hbits h value
  have hreplaces := (replaces_withWord (value.setWidth bits) h).congr fun k hk =>
    congrArg some (byteOf_setWidth value hk)
  have hbytes : m'.bytes = withWord m.bytes addr (value.setWidth bits) :=
    hholds.bytes.unique hreplaces
  rw [hstore, ← hbytes, ← hholds.maxPages_eq]

end WasmAot.Semantics

namespace WasmAot.Lowering

open Code Host Semantics Stateful

/-! ### Sequences of accesses -/

/-- Loads and stores of integers lead from operands of the first types to operands of the second
ones.  Types are written top first. -/
inductive AccessTyped : List Instr → List ValType → List ValType → Prop
  | nil {types : List ValType} : AccessTyped [] types types
  | load {op : LoadOp} {arg : MemArg} {rest : List Instr} {types types' : List ValType}
      (hop : op ∈ Binary.loadOps) (hint : op.ty.isInt = true) (hoffset : arg.offset < 2 ^ 32)
      (hrest : AccessTyped rest (op.ty :: types) types') :
      AccessTyped (.load op arg :: rest) (.i32 :: types) types'
  | store {op : StoreOp} {arg : MemArg} {rest : List Instr} {types types' : List ValType}
      (hop : op ∈ Binary.storeOps) (hint : op.ty.isInt = true) (hoffset : arg.offset < 2 ^ 32)
      (hrest : AccessTyped rest types types') :
      AccessTyped (.store op arg :: rest) (op.ty :: .i32 :: types) types'

lemma load_widths : ∀ op ∈ Binary.loadOps, op.bits ∈ Memory.widths := by decide

lemma store_widths : ∀ op ∈ Binary.storeOps,
    op.bits ∈ Memory.widths ∧ (op.ty = .i32 → op.bits ≤ 32) := by decide

section Lines

variable {source : Module} {b : Builder} {addr value : Operand} {rest : List Operand}

lemma lowerLoad_run (hmemory : source.requireMemory 0 = .ok ()) (op : LoadOp)
    (arg : MemArg) (hstack : b.current.stack = addr :: rest) (haddr : addr.ty = .i32) :
    lowerLoad source op arg b =
      .ok () (b.computed rest op.ty (.load theMemory op arg.offset addr.atom)) := by
  rw [lowerLoad, bind_run_ok (require_run hmemory), bind_run_ok (popAtom_run hstack haddr)]
  exact result_run _ _

lemma lowerStore_run (hmemory : source.requireMemory 0 = .ok ()) (op : StoreOp)
    (arg : MemArg) (hstack : b.current.stack = value :: addr :: rest) (hvalue : value.ty = op.ty)
    (haddr : addr.ty = .i32) :
    lowerStore source op arg b = .ok () ((b.withStack rest).wrote 0
      [.perform (.store theMemory op arg.offset addr.atom value.atom)]) := by
  rw [lowerStore, bind_run_ok (require_run hmemory), bind_run_ok (popAtom_run hstack hvalue),
    bind_run_ok (popAtom_run (b := b.withStack (addr :: rest)) rfl haddr)]
  exact emit_run _

end Lines

/-! ### What the lines do -/

/-- The store with another memory in place of the one that instructions work on. -/
def withMemory (links : Links) (s : Store) (m : Memory) : Store :=
  { s with memories := s.memories.setIfInBounds (links.memory 0) m }

/-- Lines have done what accesses do: the operands stand for the values on the stack, and the memory
is the same. -/
inductive Tracks (b : Builder) (links : Links) (s : Store) : Accessed → Executed → Prop
  | next {stack : List Value} {m : Memory} {env : Env}
      (hops : List.Forall₂ (Denotes env) b.current.stack stack) (hfresh : Fresh b.nextVar env) :
      Tracks b links s (.next stack m) (.next env (withMemory links s m))
  | trap (t : Trap) (m : Memory) : Tracks b links s (.trap t m) (.trapped t (withMemory links s m))

/-- The memory that instructions work on. -/
def HasMemory (links : Links) (s : Store) (m : Memory) : Prop :=
  s.memories[links.memory 0]? = some m

section Store

variable {links : Links} {s : Store} {m m' : Memory}

lemma withMemory_self (h : HasMemory links s m) : withMemory links s m = s := by
  rw [withMemory, setIfInBounds_eq_self h]

lemma withMemory_withMemory : withMemory links (withMemory links s m) m' = withMemory links s m' := by
  simp only [withMemory, Array.setIfInBounds_setIfInBounds]

lemma hasMemory_withMemory (h : HasMemory links s m) :
    HasMemory links (withMemory links s m') m' := by
  obtain ⟨hlt, -⟩ := Array.getElem?_eq_some_iff.1 h
  exact Array.getElem?_setIfInBounds_self_of_lt hlt

end Store

section Steps

variable {b : Builder} {env : Env} {links : Links} {s : Store} {m : Memory} {base : BitVec 32}
  {offset : Nat} {addr value : Atom}

lemma accessAddress_ofNat (base : BitVec 32) (h : offset < 2 ^ 32) :
    accessAddress base (.ofNat 32 offset) = base.toNat + offset := by
  rw [accessAddress, BitVec.toNat_ofNat, Nat.mod_eq_of_lt h]

/-- The host's integer, cast down, is the integer that the instruction gives. -/
lemma exists_loadedValue {op : LoadOp} (hint : op.ty.isInt = true) (bytes : Array UInt8)
    (place : Nat) :
    ∃ v, loadedValue op bytes place = some v ∧ v.type = op.ty ∧
      ofHost op.ty (widen op.signed (wordAt bytes place op.bits) 64) = some v := by
  rw [loadedValue]
  cases hty : op.ty with
  | i32 =>
    refine ⟨_, rfl, rfl, ?_⟩
    rw [ofHost, setWidth_widen _ _ (by decide)]
  | i64 => exact ⟨_, rfl, rfl, rfl⟩
  | _ =>
    rw [hty] at hint
    cases hint

/-- The integer, cast up for the host, has the low bits that the instruction stores. -/
lemma exists_storedWord {op : StoreOp} {v : Value} (hop : op ∈ Binary.storeOps)
    (hint : op.ty.isInt = true) (hv : v.type = op.ty) :
    ∃ word, toHost op.ty v = some word ∧ storedWord op v = some (word.setWidth op.bits) := by
  unfold storedWord
  cases hty : op.ty with
  | i32 =>
    obtain ⟨x, rfl⟩ := exists_i32_of_type (hv.trans hty)
    refine ⟨_, rfl, congrArg some (BitVec.eq_of_getLsbD_eq fun i hi => ?_)⟩
    have hbits := (store_widths op hop).2 hty
    have hlow : i < 32 := by omega
    have hhigh : i < 64 := by omega
    simp only [BitVec.getLsbD_setWidth, BitVec.getLsbD_signExtend, hi, hlow, hhigh, decide_true,
      Bool.true_and, if_true]
  | i64 =>
    obtain ⟨x, rfl⟩ := exists_i64_of_type (hv.trans hty)
    exact ⟨_, rfl, rfl⟩
  | _ =>
    rw [hty] at hint
    cases hint

lemma evalIn_load {op : LoadOp} (hop : op ∈ Binary.loadOps) (hoffset : offset < 2 ^ 32)
    (hmemory : HasMemory links s m) (haddr : addr.eval env = some (.i32 base)) {v : Value}
    (hv : ofHost op.ty (widen op.signed (wordAt m.bytes (base.toNat + offset) op.bits) 64) = some v) :
    (Expr.load theMemory op offset addr).evalIn links s env =
      some (if base.toNat + offset + op.bits / 8 ≤ m.bytes.size then .ok v
        else .error .outOfBounds) := by
  have hplace : s.memories[links.memory 0]? = some m := hmemory
  simp only [Expr.evalIn, theMemory, Links.memoryAt, Option.bind_eq_bind, Option.bind_some, hplace,
    word_of_eval haddr, accessAddress_ofNat base hoffset]
  by_cases hrange : base.toNat + offset + op.bits / 8 ≤ m.bytes.size
  · rw [Memory.load_eq (load_widths op hop) hrange, if_pos hrange]
    simp only [hv, Option.map_some]
  · rw [Memory.load_trapped (load_widths op hop) (Nat.not_le.1 hrange), if_neg hrange]

lemma performIn_store {op : StoreOp} {v : Value} {word : BitVec 64} (hop : op ∈ Binary.storeOps)
    (hoffset : offset < 2 ^ 32) (hmemory : HasMemory links s m)
    (haddr : addr.eval env = some (.i32 base)) (hvalue : value.eval env = some v)
    (hword : toHost op.ty v = some word) :
    (Effect.store theMemory op offset addr value).performIn links env s =
      some (if base.toNat + offset + op.bits / 8 ≤ m.bytes.size then
        .ok () (withMemory links s { m with
          bytes := withWord m.bytes (base.toNat + offset) (word.setWidth op.bits) })
        else .error .outOfBounds (withMemory links s m)) := by
  have hplace : s.memories[links.memory 0]? = some m := hmemory
  simp only [Effect.performIn, theMemory, Links.memoryAt, Option.bind_eq_bind, Option.bind_some,
    hvalue, hword, word_of_eval haddr, changeMemory, hplace, Option.map_some,
    accessAddress_ofNat base hoffset]
  by_cases hrange : base.toNat + offset + op.bits / 8 ≤ m.bytes.size
  · rw [store_eq_withWord (store_widths op hop).1 hrange, if_pos hrange]
    rfl
  · rw [Memory.store_trapped (store_widths op hop).1 (Nat.not_le.1 hrange), if_neg hrange]
    rfl

/-- The line does what the access does, whatever the values are. -/
def LineTracks (b b' : Builder) (line : Line) (instr : Instr) : Prop :=
  ∀ links s m env stack, HasMemory links s m → List.Forall₂ (Denotes env) b.current.stack stack →
    Fresh b.nextVar env →
    Tracks b' links s (evalAccess instr stack m) (line.execIn links env s)

lemma lineTracks_load {op : LoadOp} {arg : MemArg} {operand : Operand} {rest : List Operand}
    (hop : op ∈ Binary.loadOps) (hint : op.ty.isInt = true) (hoffset : arg.offset < 2 ^ 32)
    (hstack : b.current.stack = operand :: rest) (hoperand : operand.ty = .i32) :
    LineTracks b (b.computed rest op.ty (.load theMemory op arg.offset operand.atom))
      (.bind false (.temp b.nextVar) op.ty (.load theMemory op arg.offset operand.atom))
      (.load op arg) := by
  intro links s m env stack hmemory hops hfresh
  rw [hstack] at hops
  obtain ⟨u, below, hu, hrest, rfl⟩ := List.forall₂_cons_left_iff.1 hops
  obtain ⟨base, rfl⟩ := exists_i32_of_type (hu.type.trans hoperand)
  obtain ⟨v, hloaded, htype, hhost⟩ := exists_loadedValue hint m.bytes (base.toNat + arg.offset)
  have hnone := hfresh _ (Nat.le_refl _)
  have heval := evalIn_load hop hoffset hmemory hu.eval hhost
  simp only [evalAccess, hloaded, Line.execIn, hnone, Option.isSome_none, Bool.false_eq_true,
    if_false, heval]
  -- the memory stays as it is in both cases, so it may be put back into the store
  by_cases hrange : base.toNat + arg.offset + op.bits / 8 ≤ m.bytes.size
  · have hset := Extends.set hnone v
    simp only [if_pos hrange, htype, if_true]
    nth_rewrite 2 [← withMemory_self hmemory]
    refine .next (.cons ?_ (hrest.imp fun _ _ hd => hd.extend hset)) (hfresh.set v)
    rw [← htype]
    exact .bound Env.set_self
  · simp only [if_neg hrange]
    nth_rewrite 2 [← withMemory_self hmemory]
    exact .trap _ _

lemma lineTracks_store {op : StoreOp} {arg : MemArg} {value addr : Operand} {rest : List Operand}
    (hop : op ∈ Binary.storeOps) (hint : op.ty.isInt = true) (hoffset : arg.offset < 2 ^ 32)
    (hstack : b.current.stack = value :: addr :: rest) (hvalue : value.ty = op.ty)
    (haddr : addr.ty = .i32) :
    LineTracks b
      ((b.withStack rest).wrote 0 [.perform (.store theMemory op arg.offset addr.atom value.atom)])
      (.perform (.store theMemory op arg.offset addr.atom value.atom)) (.store op arg) := by
  intro links s m env stack hmemory hops hfresh
  rw [hstack] at hops
  obtain ⟨v, below, hv, hbelow, rfl⟩ := List.forall₂_cons_left_iff.1 hops
  obtain ⟨u, below, hu, hrest, rfl⟩ := List.forall₂_cons_left_iff.1 hbelow
  obtain ⟨base, rfl⟩ := exists_i32_of_type (hu.type.trans haddr)
  obtain ⟨word, hhost, hstored⟩ := exists_storedWord hop hint (hv.type.trans hvalue)
  have hperform := performIn_store hop hoffset hmemory hu.eval hv.eval hhost
  simp only [evalAccess, hstored, Line.execIn, hperform]
  by_cases hrange : base.toNat + arg.offset + op.bits / 8 ≤ m.bytes.size
  · simp only [if_pos hrange]
    exact .next hrest hfresh
  · simp only [if_neg hrange]
    exact .trap _ _

end Steps

/-! ### Whole sequences -/

section Sequences

variable {source : Module} {b b' b₁ : Builder} {links : Links} {s : Store}

/-- The lines do what the accesses do, whatever the values are. -/
def LinesTrack (b b' : Builder) (lines : List Line) (instrs : List Instr) : Prop :=
  ∀ links s m env stack, HasMemory links s m → List.Forall₂ (Denotes env) b.current.stack stack →
    Fresh b.nextVar env →
    Tracks b' links s (evalAccesses instrs stack m) (execAllIn links (leaves lines) env s)

lemma Tracks.of_withMemory {m : Memory} {accessed : Accessed} {executed : Executed}
    (h : Tracks b links (withMemory links s m) accessed executed) :
    Tracks b links s accessed executed := by
  cases h with
  | next hops hfresh =>
    rw [withMemory_withMemory]
    exact .next hops hfresh
  | trap t m =>
    rw [withMemory_withMemory]
    exact .trap t m

lemma linesTrack_nil (b : Builder) : LinesTrack b b [] [] := by
  intro links s m env stack hmemory hops hfresh
  simp only [evalAccesses, leaves, List.map_nil, execAllIn]
  nth_rewrite 2 [← withMemory_self hmemory]
  exact .next hops hfresh

lemma LineTracks.cons {line : Line} {lines : List Line} {instr : Instr} {instrs : List Instr}
    (h : LineTracks b b₁ line instr) (h' : LinesTrack b₁ b' lines instrs) :
    LinesTrack b b' (line :: lines) (instr :: instrs) := by
  intro links s m env stack hmemory hops hfresh
  have hstep := h links s m env stack hmemory hops hfresh
  simp only [evalAccesses, leaves, List.map_cons, execAllIn, execTreeIn]
  generalize evalAccess instr stack m = accessed at hstep ⊢
  generalize line.execIn links env s = executed at hstep ⊢
  cases hstep with
  | next hops' hfresh' =>
    exact (h' links _ _ _ _ (hasMemory_withMemory hmemory) hops' hfresh').of_withMemory
  | trap t m' => exact .trap t m'

/-- The lines that typed accesses are lowered to. -/
structure AccessesLowered (source : Module) (instrs : List Instr) (types : List ValType)
    (b b' : Builder) (lines : List Line) : Prop where
  lowered : lowerSeq source instrs b = .ok () b'
  out_eq : b'.out = b.out ++ lines.toArray
  plain : ∀ line ∈ lines, line.plain = true
  types_eq : b'.current.stack.map Operand.ty = types
  track : LinesTrack b b' lines instrs

lemma AccessesLowered.cons {line : Line} {lines : List Line} {instr : Instr} {instrs : List Instr}
    {types : List ValType} (hreached : b.current.unreachable = false)
    (hrun : lowerInstr source instr b = .ok () b₁) (hout : b₁.out = b.out ++ [line].toArray)
    (hplain : line.plain = true) (htrack : LineTracks b b₁ line instr)
    (h : AccessesLowered source instrs types b₁ b' lines) :
    AccessesLowered source (instr :: instrs) types b b' (line :: lines) where
  lowered := by
    rw [lowerSeq_cons hreached, bind_run_ok hrun, h.lowered]
  out_eq := by
    simp only [h.out_eq, hout, Array.append_assoc, List.append_toArray, List.singleton_append]
  plain := List.forall_mem_cons.2 ⟨hplain, h.plain⟩
  types_eq := h.types_eq
  track := htrack.cons h.track

lemma exists_accessesLowered {instrs : List Instr} {types types' : List ValType}
    (hmemory : source.requireMemory 0 = .ok ()) (h : AccessTyped instrs types types')
    (hreached : b.current.unreachable = false)
    (htypes : b.current.stack.map Operand.ty = types) :
    ∃ b' lines, AccessesLowered source instrs types' b b' lines := by
  induction h generalizing b with
  | nil => exact ⟨b, [], by rw [lowerSeq, pure_run], by simp, by simp, htypes, linesTrack_nil b⟩
  | @load op arg instrs types types' hop hint hoffset _ ih =>
    obtain ⟨addr, rest, hstack, haddr, hrest⟩ := List.map_eq_cons_iff.1 htypes
    have hrun := lowerLoad_run hmemory op arg hstack haddr
    obtain ⟨b', lines, hlowered⟩ := ih
      (b := b.computed rest op.ty (.load theMemory op arg.offset addr.atom)) hreached
      (congrArg (op.ty :: ·) hrest)
    exact ⟨b', _, hlowered.cons hreached hrun rfl rfl
      (lineTracks_load hop hint hoffset hstack haddr)⟩
  | @store op arg instrs types types' hop hint hoffset _ ih =>
    obtain ⟨value, below, hstack, hvalue, hbelow⟩ := List.map_eq_cons_iff.1 htypes
    obtain ⟨addr, rest, rfl, haddr, hrest⟩ := List.map_eq_cons_iff.1 hbelow
    have hrun := lowerStore_run hmemory op arg hstack hvalue haddr
    obtain ⟨b', lines, hlowered⟩ := ih (b := (b.withStack rest).wrote 0
      [.perform (.store theMemory op arg.offset addr.atom value.atom)]) hreached hrest
    exact ⟨b', _, hlowered.cons hreached hrun rfl rfl
      (lineTracks_store hop hint hoffset hstack hvalue haddr)⟩

end Sequences

/-- Loads and stores compose as WebAssembly says.  At the host, a store changes the bytes of its range
and nothing else, or traps, and loads put together the bytes that are there.  In the emitted code, any
sequence of integer loads and stores, of all widths and of both types, is lowered to lines that give
the same integers, the same memory and the same trap as the instructions. -/
theorem accesses_compose :
    (∀ (m : Memory) (base offset : BitVec 32) (bits : Nat) (value : BitVec 64),
      bits ∈ Memory.widths → m.Composes base offset bits value) ∧
    ∀ (source : Module) (b : Builder) (instrs : List Instr) (types : List ValType),
      source.requireMemory 0 = .ok () → b.current.unreachable = false →
      AccessTyped instrs (b.current.stack.map Operand.ty) types →
      ∃ b' lines, lowerBody source instrs b = .ok () b' ∧ b'.out = b.out ++ lines.toArray ∧
        b'.current.stack.map Operand.ty = types ∧
        ∀ links s m env stack, HasMemory links s m →
          List.Forall₂ (Denotes env) b.current.stack stack → Fresh b.nextVar env →
          Tracks b' links s (evalAccesses instrs stack m) (execLinesIn links lines env s) := by
  refine ⟨fun m base offset bits value hbits => Memory.composes m base offset hbits value, ?_⟩
  intro source b instrs types hmemory hreached htyped
  obtain ⟨b', lines, h⟩ := exists_accessesLowered hmemory htyped hreached rfl
  refine ⟨b', lines, ?_, h.out_eq, h.types_eq, fun links s m env stack hm hops hfresh => ?_⟩
  · rw [lowerBody_eq_lowerSeq, h.lowered]
  · rw [execLinesIn_of_parses (.ofLeaves h.plain)]
    exact h.track links s m env stack hm hops hfresh

/-- A module with a memory. -/
def storage : Module :=
  { memories := [{ min := 1, max := none }] }

/-- A store of 16 bits and a load of the second of its bytes, with the sign. -/
def narrowPair : List Instr :=
  [.store ⟨.i32, 16⟩ { align := 0, offset := 1 }, .load ⟨.i32, 8, true⟩ { align := 0, offset := 1 }]

/-- The value for the store, its address, and the address for the load. -/
def pairOperands : List Operand :=
  [⟨.deferred (.i32 0xfe80) none, .i32⟩, ⟨.deferred (.i32 1) none, .i32⟩,
    ⟨.deferred (.i32 2) none, .i32⟩]

lemma accessTyped_narrowPair :
    AccessTyped narrowPair (pairOperands.map Operand.ty) [.i32] :=
  .store (by decide) rfl (by decide) (.load (by decide) rfl (by decide) .nil)

lemma evalAccesses_narrowPair :
    evalAccesses narrowPair [.i32 0xfe80, .i32 1, .i32 2] ⟨#[1, 2, 3, 4, 5], 1⟩ =
      .next [.i32 (-2)] ⟨#[1, 2, 0x80, 0xfe, 5], 1⟩ := by
  rfl

/-- The load reads one of the two bytes that were stored, and an address beyond 32 bits does not come
out at the start of the memory. -/
theorem accesses_compose_overlapping :
    (8 ∈ Memory.widths ∧
      Memory.store 0 (accessAddress (-1) 1) 8 ⟨#[1, 2, 3, 4, 5], 1⟩ =
        .error .outOfBounds ⟨#[1, 2, 3, 4, 5], 1⟩) ∧
    ∃ b' lines, lowerBody storage narrowPair ((Builder.start [] [] #[]).withStack pairOperands) =
        .ok () b' ∧ b'.out = #[] ++ lines.toArray ∧ b'.current.stack.map Operand.ty = [.i32] ∧
      ∀ links s env, HasMemory links s ⟨#[1, 2, 3, 4, 5], 1⟩ → Fresh 0 env →
        Tracks b' links s (.next [.i32 (-2)] ⟨#[1, 2, 0x80, 0xfe, 5], 1⟩)
          (execLinesIn links lines env s) := by
  refine ⟨⟨by decide, (accesses_compose.1 _ (-1) 1 8 0 (by decide)).traps_iff.2 (by decide)⟩, ?_⟩
  obtain ⟨b', lines, hlower, hout, htypes, htracks⟩ := accesses_compose.2 storage
    ((Builder.start [] [] #[]).withStack pairOperands) narrowPair [.i32] rfl rfl
    accessTyped_narrowPair
  refine ⟨b', lines, hlower, hout, htypes, fun links s env hmemory hfresh => ?_⟩
  rw [← evalAccesses_narrowPair]
  exact htracks links s _ env _ hmemory
    (.cons (denotes_constant _ _) (.cons (denotes_constant _ _) (.cons (denotes_constant _ _) .nil)))
    hfresh

end WasmAot.Lowering
