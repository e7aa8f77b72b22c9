/-
# Memories and tables of a running instance

Running modules share memories and tables.  These live in a store, and the fields of an instance
lead to some of them by their addresses; two fields can lead to the same object.

A load or a store of an integer has a meaning as an instruction, in terms of the word that lies at an
address.  As an emitted line it is a call of the host, which works on integers of 64 bits, with a cast
where the integer has 32.  A copy of table slots is given as emitted lines only: it is one of two
calls of the host, chosen by whether the two tables are one object.
-/
import WasmAot.Proofs.Host.Accesses
import WasmAot.Proofs.Semantics.Execution
import WasmAot.Host.Store

namespace WasmAot.Semantics

open Host

/-! ### Instructions -/

/-- Where control is after some accesses to a memory.  Stacks are written top first, and a trap
leaves what was stored before it. -/
inductive Accessed where
  | next (stack : List Value) (m : Memory)
  | trap (trap : Trap) (m : Memory)
  | stuck

/-- Goes on from the next access. -/
def Accessed.andThen (accessed : Accessed) (k : List Value → Memory → Accessed) : Accessed :=
  match accessed with
  | next stack m => k stack m
  | accessed => accessed

/-- The integer that a load makes of the word at an address. -/
def loadedValue (op : LoadOp) (bytes : Array UInt8) (addr : Nat) : Option Value :=
  match op.ty with
  | .i32 => some (.i32 (widen op.signed (wordAt bytes addr op.bits) 32))
  | .i64 => some (.i64 (widen op.signed (wordAt bytes addr op.bits) 64))
  | _ => none

/-- The word that a store makes of an integer. -/
def storedWord (op : StoreOp) (v : Value) : Option (BitVec op.bits) :=
  match op.ty, v with
  | .i32, .i32 word => some (word.setWidth op.bits)
  | .i64, .i64 word => some (word.setWidth op.bits)
  | _, _ => none

/-- The bytes with a word at an address. -/
def withWord {bits : Nat} (bytes : Array UInt8) (addr : Nat) (word : BitVec bits) : Array UInt8 :=
  Array.ofFn fun place : Fin bytes.size =>
    if addr ≤ place ∧ place < addr + bits / 8 then byteOf word (place - addr) else bytes[place]

/-- Evaluates a load or a store of an integer.  The address does not wrap. -/
def evalAccess (instr : Instr) (stack : List Value) (m : Memory) : Accessed :=
  match instr, stack with
  | .load op arg, .i32 base :: stack =>
    let addr := base.toNat + arg.offset
    match loadedValue op m.bytes addr with
    | some v => if addr + op.bits / 8 ≤ m.bytes.size then .next (v :: stack) m else .trap .outOfBounds m
    | none => .stuck
  | .store op arg, v :: .i32 base :: stack =>
    let addr := base.toNat + arg.offset
    match storedWord op v with
    | some word =>
      if addr + op.bits / 8 ≤ m.bytes.size then
        .next stack { m with bytes := withWord m.bytes addr word }
      else .trap .outOfBounds m
    | none => .stuck
  | _, _ => .stuck

/-- Evaluates accesses one after the other. -/
def evalAccesses : List Instr → List Value → Memory → Accessed
  | [], stack, m => .next stack m
  | instr :: rest, stack, m => (evalAccess instr stack m).andThen (evalAccesses rest)

end WasmAot.Semantics

namespace WasmAot.Code

open Host Semantics

/-! ### Emitted operations -/

/-- Where the fields of an instance lead. -/
structure Links where
  memory : Nat → Address
  table : Nat → Address

/-- The memory that an operation works on. -/
def Links.memoryAt (links : Links) : Place → Option Address
  | .field (.memory index) => some (links.memory index)
  | _ => none

/-- The value of an atom that is an integer of 32 bits. -/
def Atom.word (env : Env) (a : Atom) : Option (BitVec 32) :=
  match a.eval env with
  | some (.i32 word) => some word
  | _ => none

/-- An integer as the host takes it. -/
def toHost : ValType → Value → Option (BitVec 64)
  | .i32, .i32 word => some (word.signExtend 64)
  | .i64, .i64 word => some word
  | _, _ => none

/-- What the host gives as an integer of a type. -/
def ofHost : ValType → BitVec 64 → Option Value
  | .i32, word => some (.i32 (word.setWidth 32))
  | .i64, word => some (.i64 word)
  | _, _ => none

/-- The value of an expression that may read a memory. -/
def Expr.evalIn (links : Links) (s : Store) (env : Env) : Expr → Option (Except Trap Value)
  | .load place op offset addr => do
    let m ← s.memories[← links.memoryAt place]?
    let base ← addr.word env
    match m.load (accessAddress base (.ofNat 32 offset)) op.bits op.signed with
    | .ok word => (ofHost op.ty word).map .ok
    | .error t => some (.error t)
  | e => e.eval env

/-- To put an object where it is changes nothing. -/
lemma setIfInBounds_eq_self {α : Type} {objects : Array α} {a : Address} {x : α}
    (h : objects[a]? = some x) : objects.setIfInBounds a x = objects := by
  obtain ⟨hlt, rfl⟩ := Array.getElem?_eq_some_iff.1 h
  rw [Array.setIfInBounds, dif_pos hlt, Array.set_getElem_self]

/-- Puts what a call of the host has left of an object into the store, also if it has trapped. -/
def putBack {α : Type} (put : α → Store) :
    EStateM.Result Trap α Unit → EStateM.Result Trap Store Unit
  | .ok _ x => .ok () (put x)
  | .error t x => .error t (put x)

/-- Changes a memory of the store. -/
def changeMemory (s : Store) (a : Address) (change : EStateM Trap Memory Unit) :
    Option (EStateM.Result Trap Store Unit) :=
  s.memories[a]?.map fun m =>
    putBack (fun m => { s with memories := s.memories.setIfInBounds a m }) (change m)

/-- Changes a table of the store. -/
def changeTable (s : Store) (a : Address) (change : EStateM Trap Table Unit) :
    Option (EStateM.Result Trap Store Unit) :=
  s.tables[a]?.map fun t =>
    putBack (fun t => { s with tables := s.tables.setIfInBounds a t }) (change t)

/-- What an operation does to the store.  A copy from one table to another borrows both, which is
not possible if they are one object. -/
def Effect.performIn (links : Links) (env : Env) (s : Store) :
    Effect → Option (EStateM.Result Trap Store Unit)
  | .store place op offset addr value => do
    let a ← links.memoryAt place
    let v ← value.eval env
    let word ← toHost op.ty v
    let base ← addr.word env
    changeMemory s a (Memory.store word (accessAddress base (.ofNat 32 offset)) op.bits)
  | .tableCopyWithin table src dst len => do
    let src ← src.word env
    let dst ← dst.word env
    let len ← len.word env
    changeTable s (links.table table) (Table.move src.toNat dst.toNat len.toNat)
  | .tableCopy srcTable dstTable src dst len => do
    let src ← src.word env
    let dst ← dst.word env
    let len ← len.word env
    if links.table srcTable = links.table dstTable then none
    else
      let source ← s.tables[links.table srcTable]?
      changeTable s (links.table dstTable)
        (Table.copyFrom source src.toNat dst.toNat len.toNat)
  | _ => none

/-! ### Emitted lines -/

/-- Where control is after some lines, and what the store holds then. -/
inductive Executed where
  | next (env : Env) (s : Store)
  | trapped (trap : Trap) (s : Store)
  | stuck

namespace Executed

/-- Goes on from the next line. -/
def andThen (executed : Executed) (k : Env → Store → Executed) : Executed :=
  match executed with
  | next env s => k env s
  | executed => executed

/-- Leaves a scope that was entered from an environment. -/
def within (outer : Env) : Executed → Executed
  | next env s => next (outer.leave env) s
  | executed => executed

end Executed

/-- Executes a line that opens or closes nothing. -/
def Line.execIn (links : Links) (line : Line) (env : Env) (s : Store) : Executed :=
  match line with
  | .bind _ x ty e =>
    if (env x).isSome then .stuck
    else
      match e.evalIn links s env with
      | some (.ok v) => if v.type = ty then .next (env.set x v) s else .stuck
      | some (.error t) => .trapped t s
      | none => .stuck
  | .perform effect =>
    match effect.performIn links env s with
    | some (.ok _ s) => .next env s
    | some (.error t s) => .trapped t s
    | none => .stuck
  | _ => .stuck

mutual

/-- Executes a tree. -/
def execTreeIn (links : Links) : Tree → Env → Store → Executed
  | .leaf line => fun env s => line.execIn links env s
  | .scope .. => fun _ _ => .stuck
  | .twoArms opener first second => fun env s =>
    match opener with
    | .openIfSame src dst =>
      if links.table src = links.table dst then (execAllIn links first env s).within env
      else (execAllIn links second env s).within env
    | _ => .stuck

/-- Executes trees one after the other. -/
def execAllIn (links : Links) : List Tree → Env → Store → Executed
  | [] => fun env s => .next env s
  | tree :: rest => fun env s => (execTreeIn links tree env s).andThen (execAllIn links rest)

end

/-- Executes lines. -/
def execLinesIn (links : Links) (lines : List Line) (env : Env) (s : Store) : Executed :=
  match parse lines with
  | some trees => execAllIn links trees env s
  | none => .stuck

lemma execAllIn_singleton (links : Links) (tree : Tree) (env : Env) (s : Store) :
    execAllIn links [tree] env s = execTreeIn links tree env s := by
  simp only [execAllIn]
  cases execTreeIn links tree env s <;> rfl

lemma execLinesIn_of_parses {links : Links} {lines : List Line} {trees : List Tree}
    (h : Parses lines trees) (env : Env) (s : Store) :
    execLinesIn links lines env s = execAllIn links trees env s := by
  rw [execLinesIn, h.parse_eq]

lemma word_of_eval {env : Env} {a : Atom} {word : BitVec 32} (h : a.eval env = some (.i32 word)) :
    a.word env = some word := by
  rw [Atom.word, h]

end WasmAot.Code
