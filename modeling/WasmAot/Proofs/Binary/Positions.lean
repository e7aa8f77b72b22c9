/-
# Where readers stop, and what they blame

A reader moves forward in its input, whether it succeeds or fails, and the offset in its error is that
of a byte it has come to.  Errors are raised in many places: some blame the place where a reader
stands, some a place that was remembered before other readers have run, and an `else` in the wrong
place is blamed on the construct around it.

So the property is stated for a reader that may blame any place from `start` on (`Advances`).  A reader
that remembers its place has that place as its `start` from then on, and this is all that the
combinators need.  The two loops of the decoder have it because their turns do.
-/
import WasmAot.Proofs.Binary.Turns

namespace WasmAot

/-- The offset that an error of the encoding carries. -/
def Error.offset? : Error → Option Nat
  | .lexing offset _ | .parsing offset _ => some offset
  | .typeMismatch _ | .stackUnderflow _ _ | .invalidLocal _ | .validation _ | .text _
  | .breakdown _ => none

end WasmAot

namespace WasmAot.Binary

open Stateful

/-! ### Places in an input -/

namespace Cursor

/-- The second place is in the same input, at the first one or further on. -/
def Reaches (c c' : Cursor) : Prop :=
  ∃ n ≤ c.remaining, c' = c.advance n

namespace Reaches

variable {c c₁ c₂ : Cursor}

protected lemma refl (c : Cursor) : c.Reaches c :=
  ⟨0, Nat.zero_le _, rfl⟩

protected lemma trans (h : c.Reaches c₁) (h' : c₁.Reaches c₂) : c.Reaches c₂ := by
  obtain ⟨n, hn, rfl⟩ := h
  obtain ⟨m, hm, rfl⟩ := h'
  simp only [remaining, advance, List.length_drop] at hn hm
  refine ⟨n + m, ?_, ?_⟩
  · rw [remaining]
    omega
  · simp only [advance, List.drop_drop, Nat.add_assoc]

lemma offset_le (h : c.Reaches c₁) : c.offset ≤ c₁.offset := by
  obtain ⟨n, -, rfl⟩ := h
  exact Nat.le_add_right _ _

end Reaches

/-- The place is one in these bytes: what comes after so many of them is still to be read. -/
structure StandsIn (bytes : List UInt8) (c : Cursor) : Prop where
  within : c.offset ≤ bytes.length
  ahead : c.rest = bytes.drop c.offset

namespace StandsIn

variable {bytes : List UInt8} {c c' : Cursor}

lemma start (bytes : List UInt8) : (Cursor.start bytes).StandsIn bytes :=
  ⟨Nat.zero_le _, rfl⟩

/-- The bytes that are left are those of the input that were not read. -/
lemma remaining_eq (h : c.StandsIn bytes) : c.remaining = bytes.length - c.offset := by
  rw [remaining, h.ahead, List.length_drop]

lemma of_reaches (h : c.StandsIn bytes) (hreach : c.Reaches c') : c'.StandsIn bytes := by
  obtain ⟨n, hn, rfl⟩ := hreach
  have hwithin := h.within
  rw [h.remaining_eq] at hn
  refine ⟨?_, ?_⟩
  · simp only [advance]
    omega
  · simp only [advance, h.ahead, List.drop_drop]

end StandsIn

end Cursor

/-! ### Computations that move forward -/

section

variable {σ α β : Type}

/-- The state in which a run has stopped, whether it succeeded or failed. -/
def endOf : EStateM.Result Error σ α → σ
  | .ok _ s => s
  | .error _ s => s

/-- A run that began in the state `s` has stopped further on in the input.  If it has failed, the
place that it blames is not before `start`, and not behind the one where it stopped. -/
structure StopsAhead (view : σ → Cursor) (start : Nat) (s : σ) (r : EStateM.Result Error σ α) :
    Prop where
  ahead : (view s).Reaches (view (endOf r))
  blamed : ∀ ⦃e : Error⦄ ⦃t : σ⦄, r = .error e t →
    ∀ offset ∈ e.offset?, start ≤ offset ∧ offset ≤ (view t).offset

/-- From any state that is not before `start` the computation moves forward, and it blames no place
before `start`. -/
def Advances (view : σ → Cursor) (start : Nat) (x : EStateM Error σ α) : Prop :=
  ∀ ⦃s : σ⦄, start ≤ (view s).offset → StopsAhead view start s (x s)

variable {view : σ → Cursor} {start : Nat} {x : EStateM Error σ α} {f : α → EStateM Error σ β}

namespace StopsAhead

lemma ok {s t : σ} (h : (view s).Reaches (view t)) (a : α) :
    StopsAhead view start s (.ok a t : EStateM.Result Error σ α) :=
  ⟨h, nofun⟩

lemma error {s t : σ} {e : Error} (h : (view s).Reaches (view t))
    (hblamed : ∀ offset ∈ e.offset?, start ≤ offset ∧ offset ≤ (view t).offset) :
    StopsAhead view start s (.error e t : EStateM.Result Error σ α) := by
  refine ⟨h, fun e' t' heq => ?_⟩
  cases heq
  exact hblamed

/-- A place between `start` and the one where the run is may be blamed. -/
lemma parseFault {s : σ} {offset : Nat} (hstart : start ≤ offset) (hoffset : offset ≤ (view s).offset)
    (fault : ParseFault) :
    StopsAhead view start s ((Binary.parseFault offset fault : EStateM Error σ α) s) := by
  refine .error (.refl (view s)) fun offset' hmem => ?_
  cases hmem
  exact ⟨hstart, hoffset⟩

/-- What began later may be blamed from later on. -/
lemma mono {start' : Nat} {s : σ} {r : EStateM.Result Error σ α} (h : StopsAhead view start' s r)
    (hstart : start ≤ start') : StopsAhead view start s r :=
  ⟨h.ahead, fun _ _ heq offset hoffset =>
    ⟨Nat.le_trans hstart (h.blamed heq offset hoffset).1, (h.blamed heq offset hoffset).2⟩⟩

/-- A second run goes on where the first one has stopped. -/
lemma after {s t : σ} {r : EStateM.Result Error σ α} (h : StopsAhead view start t r)
    (hreach : (view s).Reaches (view t)) : StopsAhead view start s r :=
  ⟨hreach.trans h.ahead, h.blamed⟩

lemma bind {s : σ} (hx : StopsAhead view start s (x s))
    (hf : ∀ a t, x s = .ok a t → (view s).Reaches (view t) → StopsAhead view start t (f a t)) :
    StopsAhead view start s ((x >>= f) s) := by
  cases hrun : x s with
  | error e t =>
    rw [hrun] at hx
    rw [bind_run_error hrun]
    exact .error hx.ahead (hx.blamed rfl)
  | ok a t =>
    rw [hrun] at hx
    rw [bind_run_ok hrun]
    exact (hf a t hrun hx.ahead).after hx.ahead

end StopsAhead

namespace Advances

protected lemma pure (a : α) : Advances view start (pure a : EStateM Error σ α) :=
  fun s _ => .ok (.refl (view s)) a

protected lemma get : Advances view start (get : EStateM Error σ σ) :=
  fun s _ => .ok (.refl (view s)) s

protected lemma modify {g : σ → σ} (h : ∀ s, view (g s) = view s) :
    Advances view start (modify g : EStateM Error σ PUnit) := by
  intro s _
  have hreach : (view s).Reaches (view (g s)) := by
    rw [h]
    exact .refl _
  exact .ok hreach _

protected lemma bind (hx : Advances view start x) (hf : ∀ a, Advances view start (f a)) :
    Advances view start (x >>= f) := by
  intro s hs
  exact (hx hs).bind fun a t _ hreach => hf a (Nat.le_trans hs hreach.offset_le)

protected lemma map (hx : Advances view start x) (g : α → β) :
    Advances view start (do return g (← x)) :=
  hx.bind fun a => .pure (g a)

/-- An error without an offset blames no place. -/
lemma throw {e : Error} (h : e.offset? = none) :
    Advances view start (throw e : EStateM Error σ α) := by
  intro s _
  refine .error (.refl (view s)) fun offset hoffset => ?_
  rw [h] at hoffset
  cases hoffset

lemma parseFault (fault : ParseFault) :
    Advances view start (Binary.parseFault start fault : EStateM Error σ α) :=
  fun _ hs => .parseFault (Nat.le_refl start) hs fault

lemma lexFault (fault : LexFault) :
    Advances view start (Binary.lexFault start fault : EStateM Error σ α) := by
  intro s hs
  refine .error (.refl (view s)) fun offset hmem => ?_
  cases hmem
  exact ⟨Nat.le_refl start, hs⟩

/-- From where a computation remembers its place on, this is the first one that it may blame. -/
lemma of_place {y : Nat → EStateM Error σ α} (hx : ∀ s, x s = y (view s).offset s)
    (h : ∀ offset, Advances view offset (y offset)) : Advances view start x := by
  intro s hs
  rw [hx]
  exact (h (view s).offset (Nat.le_refl _)).mono hs

/-- The body may run past the size that was declared for it; the place where it began is blamed. -/
lemma exactlyOn (size : Nat) (h : ∀ start, Advances view start x) :
    Advances view start (exactlyOn view size x) := by
  refine of_place (y := fun offset => do
    let first := view (← get)
    if first.remaining < size then Binary.lexFault offset .unexpectedEnd
    else
      let a ← x
      let consumed := (view (← get)).offset - offset
      if consumed = size then return a
      else Binary.parseFault offset (.sizeMismatch size consumed)) (fun s => rfl) fun offset => ?_
  refine Advances.get.bind fun first => ?_
  dsimp only
  split
  · exact .lexFault _
  · refine (h offset).bind fun a => Advances.get.bind fun last => ?_
    split
    · exact .pure a
    · exact .parseFault _

end Advances

end

/-! ### Bytes, integers and names -/

section

variable {α β : Type} {start : Nat}

lemma Advances.position_bind {f : Nat → Decoder β} (h : ∀ offset, Advances id offset (f offset)) :
    Advances id start (position >>= f) :=
  .of_place (fun c => bind_run_ok (position_at c)) h

lemma advances_unexpectedEnd : Advances id start (unexpectedEnd : Decoder α) :=
  .position_bind fun _ => .lexFault _

lemma advances_peek : Advances id start peek := by
  refine Advances.get.bind fun c => ?_
  split
  · exact advances_unexpectedEnd
  · exact .pure _

lemma advances_take (n : Nat) : Advances id start (take n) := by
  intro c hc
  rw [take, bind_run_ok (get_run c)]
  split
  case isTrue hroom => exact .ok (t := c.advance n) ⟨n, hroom, rfl⟩ _
  case isFalse => exact advances_unexpectedEnd hc

lemma advances_byte : Advances id start byte := by
  rintro ⟨offset, input⟩ hc
  cases input with
  | nil => exact advances_unexpectedEnd hc
  | cons b input =>
    exact .ok (t := (⟨offset + 1, input⟩ : Cursor)) ⟨1, by simp [Cursor.remaining], rfl⟩ b

lemma advances_unsignedFrom (bits room shift value : Nat) :
    Advances id start (unsignedFrom start bits room shift value) := by
  induction room generalizing shift value with
  | zero => exact .lexFault _
  | succ room ih =>
    refine advances_byte.bind fun b => ?_
    dsimp only
    split
    · exact .lexFault _
    · split
      · exact ih _ _
      · exact .pure _

lemma advances_signedFrom (bits room shift value : Nat) :
    Advances id start (signedFrom start bits room shift value) := by
  induction room generalizing shift value with
  | zero => exact .lexFault _
  | succ room ih =>
    refine advances_byte.bind fun b => ?_
    dsimp only
    split
    · exact ih _ _
    · split
      · exact .pure _
      · split
        · exact .pure _
        · exact .lexFault _

lemma advances_unsigned (bits : Nat) : Advances id start (unsigned bits) :=
  .position_bind fun _ => advances_unsignedFrom _ _ _ _

lemma advances_signed (bits : Nat) : Advances id start (signed bits) :=
  .position_bind fun _ => advances_signedFrom _ _ _ _

lemma advances_u32 : Advances id start u32 :=
  advances_unsigned 32

lemma advances_floatBits (width : Nat) : Advances id start (floatBits width) :=
  (advances_take width).map _

lemma advances_name : Advances id start name := by
  refine advances_u32.bind fun length => .position_bind fun offset => ?_
  refine (advances_take length).bind fun bytes => ?_
  split
  · exact .pure _
  · exact .lexFault _

lemma advances_repeated {item : Decoder α} (h : Advances id start item) (n : Nat) :
    Advances id start (repeated item n) := by
  induction n with
  | zero => exact .pure _
  | succ n ih => exact h.bind fun _ => ih.map _

lemma advances_vector {item : Decoder α} (h : Advances id start item) :
    Advances id start (vector item) := by
  refine advances_u32.bind fun length => Advances.get.bind fun c => ?_
  split
  · exact advances_unexpectedEnd
  · exact advances_repeated h length

lemma advances_sizePrefixed {body : Decoder α} (h : ∀ start, Advances id start body) :
    Advances id start (sizePrefixed body) :=
  advances_u32.bind fun size => .exactlyOn size h

/-! ### Instructions that are no constructs -/

lemma advances_valType : Advances id start valType := by
  refine .position_bind fun offset => advances_byte.bind fun b => ?_
  split
  · exact .pure _
  · exact .parseFault _

lemma advances_refType : Advances id start refType := by
  refine .position_bind fun offset => advances_valType.bind fun ty => ?_
  split
  · exact .pure _
  · exact .parseFault _

lemma advances_blockType : Advances id start blockType := by
  refine .position_bind fun offset => advances_peek.bind fun b => ?_
  split
  · exact advances_byte.map _
  · split
    · exact advances_byte.map _
    · refine (advances_signed 33).bind fun index => ?_
      split
      · exact .pure _
      · exact .parseFault _

lemma advances_memArg : Advances id start memArg :=
  advances_u32.bind fun _ => advances_u32.map _

lemma advances_zeroMemory : Advances id start zeroMemory := by
  refine .position_bind fun offset => advances_byte.bind fun b => ?_
  split
  · exact .pure _
  · exact .parseFault _

lemma advances_extended : Advances id start (extended start) := by
  refine advances_u32.bind fun sub => ?_
  split
  case h_1 => exact advances_u32.bind fun _ => advances_zeroMemory.map _
  case h_3 => exact advances_zeroMemory.bind fun _ => advances_zeroMemory.map _
  case h_4 => exact advances_zeroMemory.map _
  case h_5 | h_7 => exact advances_u32.bind fun _ => advances_u32.map _
  case h_2 | h_6 | h_8 | h_9 | h_10 => exact advances_u32.map _
  case h_11 =>
    split
    · exact .pure _
    · exact .parseFault _

lemma advances_tabled (opcode : UInt8) : Advances id start (tabled start opcode) := by
  rw [tabled]
  split
  · exact advances_memArg.map _
  · split
    · exact advances_memArg.map _
    · split
      · exact .pure _
      · exact .parseFault _

/-- The place of the opcode is the one that is blamed. -/
lemma advances_plainInstr (opcode : UInt8) : Advances id start (plainInstr start opcode) := by
  rw [plainInstr]
  split
  case h_1 | h_2 | h_6 | h_9 | h_10 | h_26 => exact .pure _
  case h_3 | h_4 | h_7 | h_12 | h_13 | h_14 | h_15 | h_16 | h_17 | h_18 | h_27 =>
    exact advances_u32.map _
  case h_5 => exact (advances_vector advances_u32).bind fun _ => advances_u32.map _
  case h_8 => exact advances_u32.bind fun _ => advances_u32.map _
  case h_11 =>
    refine (advances_vector advances_valType).bind fun types => ?_
    split
    · exact .pure _
    · exact .parseFault _
  case h_19 | h_20 => exact advances_zeroMemory.map _
  case h_21 => exact ((advances_signed 32).map _).map _
  case h_22 => exact ((advances_signed 64).map _).map _
  case h_23 => exact (advances_floatBits 4).map _
  case h_24 => exact (advances_floatBits 8).map _
  case h_25 => exact advances_refType.map _
  case h_28 => exact advances_extended
  case h_29 => exact advances_tabled opcode

end

/-! ### Loops -/

/-- A loop moves forward if its turns do, from all that they can begin with. -/
lemma LoopEnds.stopsAhead {σ κ ρ : Type} {turn : κ → EStateM Error σ (κ ⊕ ρ)} {view : σ → Cursor}
    {start : Nat} (I : κ → σ → Prop)
    (hturn : ∀ k s, I k s → StopsAhead view start s (turn k s))
    (hkeep : ∀ k s k' t, I k s → turn k s = .ok (.inl k') t → I k' t)
    {k : κ} {s : σ} {result : EStateM.Result Error σ ρ} (h : LoopEnds turn k s result)
    (hI : I k s) : StopsAhead view start s result := by
  induction h with
  | @failed k s t e h =>
    have hfirst := hturn k s hI
    rw [h] at hfirst
    exact .error hfirst.ahead (hfirst.blamed rfl)
  | @gave k s t r h =>
    have hfirst := hturn k s hI
    rw [h] at hfirst
    exact .ok hfirst.ahead r
  | @next k k' s t result h _ ih =>
    have hfirst := hturn k s hI
    rw [h] at hfirst
    exact (ih (hkeep k s k' t hI h)).after hfirst.ahead

/-- The open constructs began at `start` or later, and not behind the place where the reader is. -/
structure OpenSince (start : Nat) (k : Midst) (c : Cursor) : Prop where
  begun : start ≤ c.offset
  between : ∀ top ∈ k.pending, start ≤ top.offset ∧ top.offset ≤ c.offset

section

variable {start : Nat} {k : Midst} {c : Cursor}

/-- A turn blames the place of its opcode, or that of the innermost construct. -/
lemma stopsAhead_exprTurn (h : OpenSince start k c) : StopsAhead id start c (exprTurn k c) := by
  rw [exprTurn, exprStep, bind_run_ok (position_at c)]
  refine (advances_byte h.begun).bind fun opcode c₁ _ hreach => ?_
  have hopcode : c.offset ≤ c₁.offset := hreach.offset_le
  have hbegun : start ≤ c₁.offset := Nat.le_trans h.begun hopcode
  cases Construct.ofOpcode? opcode with
  | some construct =>
    dsimp only
    split
    · exact .parseFault h.begun hopcode _
    · exact advances_blockType.map _ hbegun
  | none =>
    dsimp only
    split
    · cases hpending : k.pending with
      | nil => exact .parseFault h.begun hopcode _
      | cons top below =>
        -- a mark in the wrong place is blamed on the construct around it, which began earlier
        obtain ⟨hstart, hplace⟩ := h.between top (hpending ▸ List.mem_cons_self)
        obtain ⟨construct, ty, place, outer⟩ := top
        cases construct with
        | ifThen => exact Advances.pure _ hbegun
        | block | loop | ifElse => exact .parseFault hstart (Nat.le_trans hplace hopcode) _
    · split
      · cases k.pending <;> exact Advances.pure _ hbegun
      · exact (((advances_plainInstr opcode).map _) hopcode).mono h.begun

/-- After a turn the open constructs are some of those that were open, and at most one that began with
the turn. -/
lemma offset_of_exprTurn {k' : Midst} {c' : Cursor} (h : exprTurn k c = .ok (.inl k') c') :
    ∀ top ∈ k'.pending, top.offset = c.offset ∨ ∃ top' ∈ k.pending, top.offset = top'.offset := by
  rw [exprTurn, exprStep, bind_run_ok (position_at c)] at h
  obtain ⟨opcode, c₁, -, h⟩ := of_bind_run_ok h
  have hkept {top : OpenConstruct} (htop : top ∈ k.pending) :
      top.offset = c.offset ∨ ∃ top' ∈ k.pending, top.offset = top'.offset :=
    .inr ⟨top, htop, rfl⟩
  cases hopens : Construct.ofOpcode? opcode with
  | some construct =>
    rw [hopens] at h
    dsimp only at h
    split at h
    · cases h
    · obtain ⟨ty, c₂, -, h⟩ := of_bind_run_ok h
      cases h
      exact List.forall_mem_cons.2 ⟨.inl rfl, fun top htop => hkept htop⟩
  | none =>
    rw [hopens] at h
    dsimp only at h
    split at h
    · cases hpending : k.pending with
      | nil =>
        rw [hpending] at h
        cases h
      | cons top below =>
        rw [hpending] at h hkept
        obtain ⟨construct, ty, place, outer⟩ := top
        cases construct with
        | ifThen =>
          cases h
          refine List.forall_mem_cons.2 ⟨.inr ⟨_, List.mem_cons_self, rfl⟩, fun top htop => ?_⟩
          exact hkept (List.mem_cons_of_mem _ htop)
        | block | loop | ifElse => cases h
    · split at h
      · cases hpending : k.pending with
        | nil =>
          rw [hpending] at h
          cases h
        | cons top below =>
          rw [hpending] at h hkept
          cases h
          exact fun top' htop => hkept (List.mem_cons_of_mem _ htop)
      · obtain ⟨instr, c₂, -, h⟩ := of_bind_run_ok h
        cases h
        exact fun top htop => hkept htop

lemma openSince_exprTurn {k' : Midst} {c' : Cursor} (h : OpenSince start k c)
    (hturn : exprTurn k c = .ok (.inl k') c') : OpenSince start k' c' := by
  have hreach := (stopsAhead_exprTurn h).ahead
  rw [hturn] at hreach
  have hforward : c.offset ≤ c'.offset := hreach.offset_le
  refine ⟨Nat.le_trans h.begun hforward, fun top htop => ?_⟩
  rcases offset_of_exprTurn hturn top htop with heq | ⟨top', htop', heq⟩
  · rw [heq]
    exact ⟨h.begun, hforward⟩
  · rw [heq]
    exact ⟨(h.between top' htop').1, Nat.le_trans (h.between top' htop').2 hforward⟩

lemma advances_expr : Advances id start expr := by
  intro c hc
  exact (loopEnds_expr c).stopsAhead (OpenSince start) (fun k c => stopsAhead_exprTurn)
    (fun k c k' c' => openSince_exprTurn) ⟨hc, nofun⟩

lemma advances_constExpr : Advances id start constExpr := by
  refine .position_bind fun offset => advances_expr.bind fun body => ?_
  split
  · exact .pure _
  · exact .throw rfl

end

/-! ### Items of sections -/

section

variable {start : Nat}

lemma advances_limits : Advances id start limits := by
  refine .position_bind fun offset => advances_byte.bind fun flag => ?_
  split
  · exact advances_u32.map _
  · exact advances_u32.bind fun _ => advances_u32.map _
  · exact .parseFault _

lemma advances_tableType : Advances id start tableType :=
  advances_refType.bind fun _ => advances_limits.map _

lemma advances_globalType : Advances id start globalType := by
  refine advances_valType.bind fun ty => .position_bind fun offset => advances_byte.bind fun flag => ?_
  split
  · exact .pure _
  · exact .pure _
  · exact .parseFault _

lemma advances_funcType : Advances id start funcType := by
  refine .position_bind fun offset => advances_byte.bind fun form => ?_
  split
  · exact (advances_vector advances_valType).bind fun _ => (advances_vector advances_valType).map _
  · exact .parseFault _

lemma advances_importDesc : Advances id start importDesc := by
  refine .position_bind fun offset => advances_byte.bind fun b => ?_
  split
  · exact advances_u32.map _
  · exact advances_tableType.map _
  · exact advances_limits.map _
  · exact advances_globalType.map _
  · exact .parseFault _

lemma advances_importItem : Advances id start importItem :=
  advances_name.bind fun _ => advances_name.bind fun _ => advances_importDesc.map _

lemma advances_globalDef : Advances id start globalDef :=
  advances_globalType.bind fun _ => advances_constExpr.map _

lemma advances_exportItem : Advances id start exportItem := by
  refine advances_name.bind fun name => .position_bind fun offset => advances_byte.bind fun b => ?_
  split
  · exact advances_u32.map _
  · exact .parseFault _

lemma advances_elemKind : Advances id start elemKind := by
  refine .position_bind fun offset => advances_byte.bind fun b => ?_
  split
  · exact .pure _
  · exact .parseFault _

lemma advances_funcItems : Advances id start funcItems :=
  advances_vector (advances_u32.map _)

lemma advances_elemSegment : Advances id start elemSegment := by
  refine .position_bind fun offset => advances_u32.bind fun flags => ?_
  have hitems {start : Nat} : Advances id start (vector constExpr) :=
    advances_vector advances_constExpr
  split
  case h_1 => exact advances_constExpr.bind fun _ => advances_funcItems.map _
  case h_2 | h_4 => exact advances_elemKind.bind fun _ => advances_funcItems.map _
  case h_3 =>
    exact advances_u32.bind fun _ => advances_constExpr.bind fun _ => advances_elemKind.bind fun _ =>
      advances_funcItems.map _
  case h_5 => exact advances_constExpr.bind fun _ => hitems.map _
  case h_6 | h_8 => exact advances_refType.bind fun _ => hitems.map _
  case h_7 =>
    exact advances_u32.bind fun _ => advances_constExpr.bind fun _ => advances_refType.bind fun _ =>
      hitems.map _
  case h_9 => exact .parseFault _

lemma advances_dataMode : Advances id start dataMode := by
  refine .position_bind fun offset => advances_u32.bind fun flags => ?_
  split
  · exact advances_constExpr.map _
  · exact .pure _
  · exact advances_u32.bind fun _ => advances_constExpr.map _
  · exact .parseFault _

lemma advances_dataSegment : Advances id start dataSegment :=
  advances_dataMode.bind fun _ => advances_u32.bind fun length => (advances_take length).map _

lemma advances_localGroup : Advances id start localGroup :=
  advances_u32.bind fun _ => advances_valType.map _

lemma advances_localDecls : Advances id start localDecls := by
  refine .position_bind fun offset => (advances_vector advances_localGroup).bind fun groups => ?_
  dsimp only
  split
  · exact .parseFault _
  · exact .pure _

lemma advances_funcBody (type : Nat) : Advances id start (funcBody type) :=
  advances_sizePrefixed fun _ => advances_localDecls.bind fun _ => advances_expr.map _

/-! ### Sections -/

lemma Advances.item {α : Type} {d : Decoder α} (h : Advances id start d) :
    Advances ScanState.cursor start (scanItem d) := by
  intro s hs
  have hitem := h hs
  rw [scanItem]
  cases hrun : d s.cursor with
  | ok a c =>
    rw [hrun] at hitem
    exact .ok (s := s) (t := { s with cursor := c }) hitem.ahead a
  | error e c =>
    rw [hrun] at hitem
    exact .error (s := s) (t := { s with cursor := c }) hitem.ahead (hitem.blamed rfl)

lemma Advances.scanPosition_bind {α : Type} {f : Nat → Scanner α}
    (h : ∀ offset, Advances ScanState.cursor offset (f offset)) :
    Advances ScanState.cursor start (scanItem position >>= f) :=
  .of_place (fun _ => rfl) h

lemma advances_extend (change : Module → Module) : Advances ScanState.cursor start (extend change) :=
  .modify fun _ => rfl

lemma advances_scanBodies (types : List Nat) :
    Advances ScanState.cursor start (scanBodies types) := by
  induction types with
  | nil => exact .pure _
  | cons type types ih =>
    exact (advances_funcBody type).item.bind fun _ => (advances_extend _).bind fun _ => ih

lemma advances_scanCode : Advances ScanState.cursor start scanCode := by
  refine .scanPosition_bind fun offset => advances_u32.item.bind fun count => ?_
  refine Advances.get.bind fun s => ?_
  dsimp only
  split
  · exact (advances_scanBodies _).bind fun _ => .modify fun _ => rfl
  · exact .parseFault _

lemma advances_scanData : Advances ScanState.cursor start scanData := by
  refine (advances_vector advances_dataSegment).item.bind fun segments => ?_
  refine Advances.get.bind fun s => ?_
  split
  · exact advances_extend _
  · split
    · exact advances_extend _
    · exact .scanPosition_bind fun offset => .parseFault _

lemma advances_scanSection (kind : SectionId) :
    Advances ScanState.cursor start (scanSection kind) := by
  cases kind with
  | type => exact (advances_vector advances_funcType).item.bind fun _ => advances_extend _
  | imports => exact (advances_vector advances_importItem).item.bind fun _ => advances_extend _
  | function => exact (advances_vector advances_u32).item.bind fun _ => .modify fun _ => rfl
  | table => exact (advances_vector advances_tableType).item.bind fun _ => advances_extend _
  | memory => exact (advances_vector advances_limits).item.bind fun _ => advances_extend _
  | global => exact (advances_vector advances_globalDef).item.bind fun _ => advances_extend _
  | exports => exact (advances_vector advances_exportItem).item.bind fun _ => advances_extend _
  | element => exact (advances_vector advances_elemSegment).item.bind fun _ => advances_extend _
  | start | dataCount => exact advances_u32.item.bind fun _ => advances_extend _
  | code => exact advances_scanCode
  | data => exact advances_scanData

lemma advances_framedSection : Advances ScanState.cursor start framedSection := by
  refine advances_byte.item.bind fun id => advances_u32.item.bind fun size => ?_
  split
  · exact .exactlyOn size fun _ => advances_scanSection _
  · exact ((advances_take size).bind fun _ => .pure _).item

lemma advances_sectionTurn (k : Unit) : Advances ScanState.cursor start (sectionTurn k) := by
  refine Advances.get.bind fun s => ?_
  split
  · exact .pure _
  · exact advances_framedSection.map _

lemma stopsAhead_sections (s : ScanState) (hs : start ≤ s.cursor.offset) :
    StopsAhead ScanState.cursor start s (sectionsFrom s.cursor.remaining s) := by
  refine (loopEnds_sections s).stopsAhead (fun _ s => start ≤ s.cursor.offset)
    (fun k s hs => advances_sectionTurn k hs) (fun k s k' t hs hturn => ?_) hs
  have hreach := (advances_sectionTurn k hs).ahead
  rw [hturn] at hreach
  exact Nat.le_trans hs hreach.offset_le

end

/-! ### Whole files -/

/-- The two halves of the header are blamed by their offsets, and both have been read then. -/
lemma stopsAhead_header (bytes : List UInt8) :
    StopsAhead id 0 (.start bytes) (header (.start bytes)) := by
  refine (advances_take 4 (Nat.zero_le _)).bind fun found c₁ hfirst _ => ?_
  obtain ⟨rest, -, rfl, hlength⟩ := eq_of_take_run hfirst
  split
  · refine (advances_take 4 (Nat.zero_le _)).bind fun found' c₂ hsecond hreach => ?_
    split
    · exact Advances.pure _ (Nat.zero_le _)
    · refine .parseFault (Nat.zero_le _) ?_ _
      have hoffset : 0 + found.length ≤ c₂.offset := hreach.offset_le
      simp only [id_eq]
      omega
  · exact .parseFault (Nat.le_refl 0) (Nat.zero_le _) _

/-- No error of the decoder blames a place behind the input. -/
lemma offset_le_of_decode {bytes : List UInt8} {e : Error} (h : decode bytes = .error e) :
    ∀ offset ∈ e.offset?, offset ≤ bytes.length := by
  have hheader := stopsAhead_header bytes
  have hstart := Cursor.StandsIn.start bytes
  intro offset hoffset
  rw [decode] at h
  split at h
  case h_1 hrun =>
    cases h
    rw [hrun] at hheader
    have hblamed := (hheader.blamed rfl offset hoffset).2
    exact Nat.le_trans hblamed (hstart.of_reaches hheader.ahead).within
  case h_2 c hrun =>
    rw [hrun] at hheader
    have hc := hstart.of_reaches hheader.ahead
    have hsections := stopsAhead_sections ⟨c, {}⟩ (Nat.zero_le _)
    split at h
    case h_1 hscan =>
      cases h
      rw [hscan] at hsections
      have hblamed := (hsections.blamed rfl offset hoffset).2
      exact Nat.le_trans hblamed (hc.of_reaches hsections.ahead).within
    case h_2 =>
      rw [Draft.complete] at h
      split at h
      · cases h
      · cases h
        cases hoffset
        exact Nat.zero_le _

end WasmAot.Binary
