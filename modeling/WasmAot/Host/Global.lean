/-
# Globals

A global holds a value of one type.  One that is not mutable is written once, to initialise it.
-/
import WasmAot.Host.Value

namespace WasmAot.Host

/-- A global. -/
structure Global where
  value : Value
  mutable : Bool
  /-- it was written -/
  initialized : Bool

namespace Global

/-- A global of the type with the given tag, zero at first. -/
def new (tag : Char) (mutable : Bool) : Except Trap Global :=
  match ValType.ofTag? tag with
  | some ty => .ok { value := Value.zero ty, mutable, initialized := false }
  | none => .error .globalKindMismatch

/-- The type of the value. -/
def type (g : Global) : ValType :=
  g.value.type

/-! ### Reading -/

/-- The value of an integer global, sign-extended to 64 bits. -/
def readInt (g : Global) : Except Trap (BitVec 64) :=
  match g.value with
  | .i32 v => .ok (v.signExtend 64)
  | .i64 v => .ok v
  | _ => .error .globalKindMismatch

/-- The value of a float global, widened to 64 bits. -/
def readFloat (g : Global) : Except Trap (BitVec 64) :=
  match g.value with
  | .f32 bits => .ok (BitVec.ofNat 64 (Ieee.single.convert Ieee.double bits.toNat))
  | .f64 bits => .ok bits
  | _ => .error .globalKindMismatch

/-- The value of a global that holds a reference. -/
def readRef (g : Global) : Except Trap Value :=
  if g.type.isRef then .ok g.value else .error .globalKindMismatch

/-! ### Writing -/

/-- Writes a value of the right type. -/
def accept (value : Value) : EStateM Trap Global Unit := do
  let g ← get
  if g.initialized && !g.mutable then throw .immutableGlobal
  else
    modify fun g => { g with value }
    modify fun g => { g with initialized := true }

/-- Writes an integer; a global of 32 bits keeps the low ones. -/
def writeInt (v : BitVec 64) : EStateM Trap Global Unit := do
  match (← get).type with
  | .i32 => accept (.i32 (v.truncate 32))
  | .i64 => accept (.i64 v)
  | _ => throw .globalKindMismatch

/-- Writes a float; a global of 32 bits narrows it. -/
def writeFloat (bits : BitVec 64) : EStateM Trap Global Unit := do
  match (← get).type with
  | .f32 => accept (.f32 (BitVec.ofNat 32 (Ieee.double.convert Ieee.single bits.toNat)))
  | .f64 => accept (.f64 bits)
  | _ => throw .globalKindMismatch

/-- Writes a value of any type, which has to be that of the global. -/
def write (v : Value) : EStateM Trap Global Unit := do
  if v.type = (← get).type then accept v else throw .globalKindMismatch

/-- Writes a reference. -/
def writeRef (v : Value) : EStateM Trap Global Unit :=
  if v.type.isRef then write v else throw .globalKindMismatch

end Global

end WasmAot.Host
