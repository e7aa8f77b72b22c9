/-
# Programs of reading steps

What can be done with a cursor is put together from single readings: one after the other, again and
again for the items of a vector, within a size that was declared, and also after a reading that has
failed.  This file has these programs as a type, and shows of every reading that a program comes to
that it begins and ends in the input, does not go back, and blames a place that it has come to.  The
decoder of files is not one of them, because its sections also build up a module; it ends on every
input, and its errors blame no place behind it.
-/
import WasmAot.Proofs.Binary.Positions

namespace WasmAot.Binary

open Stateful

/-! ### Programs -/

/-- A single reading, and the type of what is read. -/
inductive Reading : Type → Type
  | position : Reading Nat
  | remaining : Reading Nat
  | isEmpty : Reading Bool
  | peek : Reading UInt8
  | byte : Reading UInt8
  | take (n : Nat) : Reading (List UInt8)
  | skip (n : Nat) : Reading Unit
  | unsigned (bits : Nat) : Reading Nat
  | signed (bits : Nat) : Reading Int
  | u32 : Reading Nat
  | i32 : Reading (BitVec 32)
  | i64 : Reading (BitVec 64)
  | floatBits (width : Nat) : Reading Nat
  | name : Reading String
  | valType : Reading ValType
  | refType : Reading ValType
  | blockType : Reading BlockType
  | zeroMemory : Reading Unit
  | expr : Reading (List Instr)
  | constExpr : Reading ConstExpr
  | limits : Reading Limits
  | tableType : Reading TableType
  | globalType : Reading GlobalType
  | elemKind : Reading ValType
  | funcItems : Reading (List ConstExpr)
  | funcType : Reading FuncType
  | importItem : Reading Import
  | globalDef : Reading GlobalDef
  | exportItem : Reading Export
  | elemSegment : Reading ElemSegment
  | dataSegment : Reading DataSegment
  | localDecls : Reading (List ValType)
  | funcBody (type : Nat) : Reading FuncDef

def Reading.decoder {α : Type} : Reading α → Decoder α
  | .position => Binary.position
  | .remaining => do return (← get).remaining
  | .isEmpty => do return (← get).rest.isEmpty
  | .peek => Binary.peek
  | .byte => Binary.byte
  | .take n => Binary.take n
  | .skip n => Binary.skip n
  | .unsigned bits => Binary.unsigned bits
  | .signed bits => Binary.signed bits
  | .u32 => Binary.u32
  | .i32 => Binary.i32
  | .i64 => Binary.i64
  | .floatBits width => Binary.floatBits width
  | .name => Binary.name
  | .valType => Binary.valType
  | .refType => Binary.refType
  | .blockType => Binary.blockType
  | .zeroMemory => Binary.zeroMemory
  | .expr => Binary.expr
  | .constExpr => Binary.constExpr
  | .limits => Binary.limits
  | .tableType => Binary.tableType
  | .globalType => Binary.globalType
  | .elemKind => Binary.elemKind
  | .funcItems => Binary.funcItems
  | .funcType => Binary.funcType
  | .importItem => Binary.importItem
  | .globalDef => Binary.globalDef
  | .exportItem => Binary.exportItem
  | .elemSegment => Binary.elemSegment
  | .dataSegment => Binary.dataSegment
  | .localDecls => Binary.localDecls
  | .funcBody type => Binary.funcBody type

/-- What can be done with a cursor. -/
inductive Program : Type → Type 1
  | read {α : Type} (reading : Reading α) : Program α
  | give {α : Type} (a : α) : Program α
  | next {α β : Type} (first : Program α) (rest : α → Program β) : Program β
  /-- goes on if the program fails, with its error as the value -/
  | outcome {α : Type} (tried : Program α) : Program (Except Error α)
  /-- refuses what was read with a fault at the place where it began -/
  | checked {α β : Type} (first : Program α) (check : α → Except ParseFault β) : Program β
  | vector {α : Type} (item : Program α) : Program (List α)
  | exactly {α : Type} (size : Nat) (body : Program α) : Program α
  | sizePrefixed {α : Type} (body : Program α) : Program α

/-- The value of a decoder or its error; it stays where it has stopped. -/
def outcomeOf {α : Type} (d : Decoder α) : Decoder (Except Error α) := fun c =>
  match d c with
  | .ok a c' => .ok (.ok a) c'
  | .error e c' => .ok (.error e) c'

/-- A decoder whose value is checked. -/
def checkedBy {α β : Type} (d : Decoder α) (check : α → Except ParseFault β) : Decoder β := do
  let offset ← position
  match check (← d) with
  | .ok b => return b
  | .error fault => parseFault offset fault

namespace Program

/-- Runs the program. -/
def run {α : Type} : Program α → Decoder α
  | .read reading => reading.decoder
  | .give a => pure a
  | .next first rest => first.run >>= fun a => (rest a).run
  | .outcome tried => outcomeOf tried.run
  | .checked first check => checkedBy first.run check
  | .vector item => Binary.vector item.run
  | .exactly size body => Binary.exactly size body.run
  | .sizePrefixed body => Binary.sizePrefixed body.run

/-- The program, run from the first place, comes to run a part of it from the second place. -/
inductive ComesTo : {α β : Type} → Program α → Cursor → Program β → Cursor → Prop
  | whole {α : Type} (p : Program α) (c : Cursor) : ComesTo p c p c
  | first {α β γ : Type} {p : Program α} {rest : α → Program β} {q : Program γ} {c d : Cursor}
      (h : ComesTo p c q d) : ComesTo (.next p rest) c q d
  | rest {α β γ : Type} {p : Program α} {rest : α → Program β} {q : Program γ} {c c₁ d : Cursor}
      {a : α} (hfirst : p.run c = .ok a c₁) (h : ComesTo (rest a) c₁ q d) :
      ComesTo (.next p rest) c q d
  | outcome {α γ : Type} {p : Program α} {q : Program γ} {c d : Cursor} (h : ComesTo p c q d) :
      ComesTo (.outcome p) c q d
  | checked {α β γ : Type} {p : Program α} {check : α → Except ParseFault β} {q : Program γ}
      {c d : Cursor} (h : ComesTo p c q d) : ComesTo (.checked p check) c q d
  /-- an item of a vector, after `before` other ones -/
  | item {α γ : Type} {item : Program α} {q : Program γ} {c c₁ c₂ d : Cursor}
      {length before : Nat} {items : List α} (hlength : u32 c = .ok length c₁)
      (hroom : length ≤ c₁.remaining) (hbefore : repeated item.run before c₁ = .ok items c₂)
      (hless : before < length) (h : ComesTo item c₂ q d) : ComesTo (.vector item) c q d
  | exactly {α γ : Type} {size : Nat} {body : Program α} {q : Program γ} {c d : Cursor}
      (hroom : size ≤ c.remaining) (h : ComesTo body c q d) : ComesTo (.exactly size body) c q d
  | sizePrefixed {α γ : Type} {size : Nat} {body : Program α} {q : Program γ} {c c₁ d : Cursor}
      (hsize : u32 c = .ok size c₁) (hroom : size ≤ c₁.remaining) (h : ComesTo body c₁ q d) :
      ComesTo (.sizePrefixed body) c q d

end Program

/-! ### All programs move forward -/

section

variable {start : Nat} {α β : Type}

lemma advances_reading (reading : Reading α) : Advances id start reading.decoder := by
  cases reading with
  | position => exact .position_bind fun _ => .pure _
  | remaining | isEmpty => exact Advances.get.map _
  | peek => exact advances_peek
  | byte => exact advances_byte
  | take n => exact advances_take n
  | skip n => exact (advances_take n).bind fun _ => .pure _
  | unsigned bits => exact advances_unsigned bits
  | signed bits => exact advances_signed bits
  | u32 => exact advances_u32
  | i32 => exact (advances_signed 32).map _
  | i64 => exact (advances_signed 64).map _
  | floatBits width => exact advances_floatBits width
  | name => exact advances_name
  | valType => exact advances_valType
  | refType => exact advances_refType
  | blockType => exact advances_blockType
  | zeroMemory => exact advances_zeroMemory
  | expr => exact advances_expr
  | constExpr => exact advances_constExpr
  | limits => exact advances_limits
  | tableType => exact advances_tableType
  | globalType => exact advances_globalType
  | elemKind => exact advances_elemKind
  | funcItems => exact advances_funcItems
  | funcType => exact advances_funcType
  | importItem => exact advances_importItem
  | globalDef => exact advances_globalDef
  | exportItem => exact advances_exportItem
  | elemSegment => exact advances_elemSegment
  | dataSegment => exact advances_dataSegment
  | localDecls => exact advances_localDecls
  | funcBody type => exact advances_funcBody type

lemma advances_outcomeOf {d : Decoder α} (h : Advances id start d) :
    Advances id start (outcomeOf d) := by
  intro c hc
  have hreach := (h hc).ahead
  rw [outcomeOf]
  cases hrun : d c <;> rw [hrun] at hreach <;> exact .ok hreach _

lemma advances_checkedBy {d : Decoder α} (h : ∀ start, Advances id start d)
    (check : α → Except ParseFault β) : Advances id start (checkedBy d check) := by
  refine .position_bind fun offset => (h offset).bind fun a => ?_
  split
  · exact .pure _
  · exact .parseFault _

/-- By induction on the program. -/
lemma advances_program (p : Program α) : Advances id start p.run := by
  induction p generalizing start with
  | read reading => exact advances_reading reading
  | give a => exact .pure a
  | next first rest ihfirst ihrest => exact ihfirst.bind fun a => ihrest a
  | outcome tried ih => exact advances_outcomeOf ih
  | checked first check ih => exact advances_checkedBy (fun _ => ih) check
  | vector item ih => exact advances_vector ih
  | exactly size body ih => exact .exactlyOn size fun _ => ih
  | sizePrefixed body ih => exact advances_sizePrefixed fun _ => ih

end

/-- What succeeds has moved forward. -/
lemma Advances.reaches {α : Type} {d : Decoder α} (h : Advances id 0 d) {a : α} {c c' : Cursor}
    (hrun : d c = .ok a c') : c.Reaches c' := by
  have hreach := (h (Nat.zero_le c.offset)).ahead
  rwa [hrun] at hreach

/-- The parts of a program are run further on. -/
lemma Program.ComesTo.reaches {α β : Type} {p : Program α} {q : Program β} {c d : Cursor}
    (h : p.ComesTo c q d) : c.Reaches d := by
  induction h with
  | whole p c => exact .refl c
  | first _ ih => exact ih
  | rest hfirst _ ih => exact ((advances_program _).reaches hfirst).trans ih
  | outcome _ ih => exact ih
  | checked _ ih => exact ih
  | @item _ _ item _ _ _ _ _ _ before _ hlength _ hbefore _ _ ih =>
    have hitems := (advances_repeated (advances_program item) before).reaches hbefore
    exact (advances_u32.reaches hlength).trans (hitems.trans ih)
  | exactly _ _ ih => exact ih
  | sizePrefixed hsize _ _ ih => exact (advances_u32.reaches hsize).trans ih

/-! ### The decoder without a bound -/

/-- What reading the sections leads to: an error, or the module as far as it is complete. -/
def answerOf : EStateM.Result Error ScanState Unit → Except Error Module
  | .error e _ => .error e
  | .ok _ s => s.draft.complete

/-- Decoding the bytes ends with this answer: the header is refused, or after it sections are read,
however many there are, until one fails or the input ends. -/
inductive DecodeEnds (bytes : List UInt8) : Except Error Module → Prop
  | refused {e : Error} {c : Cursor} (h : header (.start bytes) = .error e c) :
      DecodeEnds bytes (.error e)
  | read {c : Cursor} {result : EStateM.Result Error ScanState Unit}
      (hheader : header (.start bytes) = .ok () c) (h : LoopEnds sectionTurn () ⟨c, {}⟩ result) :
      DecodeEnds bytes (answerOf result)

/-- The decoder is the one way in which decoding ends. -/
lemma decodeEnds_iff {bytes : List UInt8} {answer : Except Error Module} :
    DecodeEnds bytes answer ↔ answer = decode bytes := by
  have hdecode {c : Cursor} (hheader : header (.start bytes) = .ok () c) :
      decode bytes = answerOf (sectionsFrom c.remaining ⟨c, {}⟩) := by
    rw [decode, hheader]
    dsimp only
    cases sectionsFrom c.remaining ⟨c, {}⟩ <;> rfl
  constructor
  · rintro (h | ⟨hheader, h⟩)
    · rw [decode, h]
    · rw [hdecode hheader, h.unique (loopEnds_sections _)]
  · rintro rfl
    cases hheader : header (.start bytes) with
    | error e c =>
      rw [decode, hheader]
      exact .refused hheader
    | ok _ c =>
      rw [hdecode hheader]
      exact .read hheader (loopEnds_sections ⟨c, {}⟩)

/-! ### Readers stay in range -/

/-- A reading from this place, with this result, keeps to the input. -/
structure StepInRange {α : Type} (bytes : List UInt8) (c : Cursor)
    (r : EStateM.Result Error Cursor α) : Prop where
  begins : c.StandsIn bytes
  ends : (endOf r).StandsIn bytes
  /-- what was read and what is left make up the input -/
  left : (endOf r).offset + (endOf r).remaining = bytes.length
  forward : c.offset ≤ (endOf r).offset
  /-- the offset in an error lies between the beginning of the reading and its end -/
  blamed : ∀ ⦃e : Error⦄ ⦃c' : Cursor⦄, r = .error e c' →
    ∀ offset ∈ e.offset?, c.offset ≤ offset ∧ offset ≤ c'.offset

lemma stepInRange_program {α : Type} (p : Program α) {bytes : List UInt8} {c : Cursor}
    (h : c.StandsIn bytes) : StepInRange bytes c (p.run c) := by
  have hrun : StopsAhead id c.offset c (p.run c) := advances_program p (Nat.le_refl c.offset)
  have hends := h.of_reaches hrun.ahead
  refine ⟨h, hends, ?_, hrun.ahead.offset_le, hrun.blamed⟩
  have hleft := hends.remaining_eq
  have hwithin := hends.within
  simp only [id_eq] at hleft hwithin
  omega

/-- Looking at a byte, reading one and reading or passing over any number of them either succeeds or
has no effect. -/
lemma atomic_readings :
    Atomic id peek ∧ Atomic id byte ∧ ∀ n, Atomic id (take n) ∧ Atomic id (skip n) := by
  have htake (n : Nat) : Atomic id (take n) := by
    intro c e c' h
    rw [take, bind_run_ok (get_run c)] at h
    split at h <;> cases h
    rfl
  refine ⟨?_, ?_, fun n => ⟨htake n, (htake n).andThen fun _ => .pure _⟩⟩
  · rintro ⟨offset, input⟩ e c' h
    cases input <;> cases h
    rfl
  · rintro ⟨offset, input⟩ e c' h
    cases input <;> cases h
    rfl

/-- Readers stay in range.  Whatever a program comes to read, it begins and ends in the input and does
not go back, and its error blames a place that it has come to; the simple readings fail without
effect.  So expressions and files are read in a number of turns that the input bounds, and no error of
the decoder blames a place behind the input. -/
theorem readers_stayInRange (bytes : List UInt8) :
    (∀ {α β : Type} (program : Program α) (part : Program β) (c : Cursor),
      program.ComesTo (.start bytes) part c → StepInRange bytes c (part.run c)) ∧
    (Atomic id peek ∧ Atomic id byte ∧ ∀ n, Atomic id (take n) ∧ Atomic id (skip n)) ∧
    (∀ c result, LoopEnds exprTurn ⟨[], []⟩ c result ↔ result = expr c) ∧
    (∀ answer, DecodeEnds bytes answer ↔ answer = decode bytes) ∧
    ∀ e, decode bytes = .error e → ∀ offset ∈ e.offset?, offset ≤ bytes.length := by
  refine ⟨fun program part c h => ?_, atomic_readings, fun c result => ?_, fun _ => decodeEnds_iff,
    fun e => offset_le_of_decode⟩
  · exact stepInRange_program part ((Cursor.StandsIn.start bytes).of_reaches h.reaches)
  · refine ⟨fun h => h.unique (loopEnds_expr c), ?_⟩
    rintro rfl
    exact loopEnds_expr c

/-- A vector of names in a body of a declared size, and then more bytes than any machine has. -/
def namesAndMore : Program (List UInt8) :=
  .next (.outcome (.sizePrefixed (.vector (.read .name)))) fun _ => .read (.take (2 ^ 64 - 1))

/-- The declared size is one byte, and the name of two bytes goes on behind it. -/
def overrun : List UInt8 :=
  [0x01, 0x01, 0x02, 0x61, 0x62, 0x0b]

/-- The name is read behind the end of the body; the body is blamed for it, and the last reading fails
where the vector has stopped.  A section that ends behind its id is blamed at the end of the file. -/
theorem readers_stayInRange_overrun :
    namesAndMore.run (.start overrun) = .error (.lexing 5 .unexpectedEnd) ⟨5, [0x0b]⟩ ∧
      (Program.sizePrefixed (.vector (.read .name))).run (.start overrun) =
        .error (.parsing 1 (.sizeMismatch 1 4)) ⟨5, [0x0b]⟩ ∧
      StepInRange overrun (.start overrun)
        ((Program.sizePrefixed (.vector (.read .name))).run (.start overrun)) ∧
      StepInRange overrun ⟨2, [0x02, 0x61, 0x62, 0x0b]⟩
        ((Program.read .name).run ⟨2, [0x02, 0x61, 0x62, 0x0b]⟩) ∧
      decode (magic ++ version ++ [0x01]) = .error (.lexing 9 .unexpectedEnd) ∧
      9 ≤ (magic ++ version ++ [0x01]).length := by
  obtain ⟨hrange, -⟩ := readers_stayInRange overrun
  obtain ⟨-, -, -, -, hblamed⟩ := readers_stayInRange (magic ++ version ++ [0x01])
  refine ⟨rfl, rfl, hrange namesAndMore _ _ (.first (.outcome (.whole _ _))),
    hrange namesAndMore _ _ (.first (.outcome (.sizePrefixed rfl (by decide) ?_))), rfl,
    hblamed _ rfl 9 rfl⟩
  exact .item rfl (by decide) rfl Nat.zero_lt_one (.whole _ _)

end WasmAot.Binary
