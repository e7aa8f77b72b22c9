/-
# Tables

A table has a slot for each index, with a reference to a function or none.  Operations on ranges of
slots check their ranges before they write.
-/
import WasmAot.Host.Span
import WasmAot.Host.Value

namespace WasmAot.Host

/-- The largest number of slots. -/
def addressableSlots : Nat := 1 <<< 32 - 1

/-- A table of references to functions. -/
structure Table where
  slots : Array (Option Address) := #[]
  /-- the number of slots beyond which the table does not grow -/
  max : Option Nat := none

namespace Table

/-- A table of empty slots. -/
def new (min : Nat) (max : Option Nat) : Table :=
  { slots := Array.replicate min none, max }

/-- The number of slots. -/
def size (t : Table) : Nat :=
  t.slots.size

/-- Adds slots.  The answer is the number of slots before, or -1 and the table stays. -/
def grow (delta : Nat) (init : Option Address) : EStateM Trap Table Int := do
  let t ← get
  if t.max.getD addressableSlots < t.size + delta then return -1
  else
    set { t with slots := t.slots ++ Array.replicate delta init }
    return t.size

/-- The contents of a slot. -/
def get (t : Table) (index : Nat) : Except Trap (Option Address) :=
  match t.slots[index]? with
  | some slot => .ok slot
  | none => .error .tableOutOfBounds

/-- Changes the contents of a slot. -/
def set (index : Nat) (value : Option Address) : EStateM Trap Table Unit := do
  if index < (← MonadState.get).size then
    modify fun t => { t with slots := t.slots.setIfInBounds index value }
  else throw .tableOutOfBounds

/-- Sets all slots of a range to one value. -/
def fill (n : Nat) (value : Option Address) (offset : Nat) : EStateM Trap Table Unit := do
  orTrap (checkRange .tableOutOfBounds (← MonadState.get).slots offset n)
  modify fun t => { t with slots := splice t.slots offset (Array.replicate n value) }

/-- Copies a range of an element segment into the table. -/
def init (segment : Array (Option Address)) (src dst n : Nat) : EStateM Trap Table Unit := do
  orTrap (checkRange .tableOutOfBounds segment src n)
  orTrap (checkRange .tableOutOfBounds (← MonadState.get).slots dst n)
  modify fun t => { t with slots := splice t.slots dst (slice segment src n) }

/-- Copies all of an element segment into the table. -/
def place (values : Array (Option Address)) (offset : Nat) : EStateM Trap Table Unit := do
  orTrap (checkRange .tableOutOfBounds (← MonadState.get).slots offset values.size)
  modify fun t => { t with slots := splice t.slots offset values }

/-- Copies a range of another table into this one. -/
def copyFrom (source : Table) (src dst n : Nat) : EStateM Trap Table Unit := do
  orTrap (checkRange .tableOutOfBounds source.slots src n)
  orTrap (checkRange .tableOutOfBounds (← MonadState.get).slots dst n)
  modify fun t => { t with slots := splice t.slots dst (slice source.slots src n) }

/-- Copies a range inside the table; what is read is set aside before anything is written. -/
def move (src dst n : Nat) : EStateM Trap Table Unit := do
  orTrap (checkRange .tableOutOfBounds (← MonadState.get).slots src n)
  orTrap (checkRange .tableOutOfBounds (← MonadState.get).slots dst n)
  let staged := slice (← MonadState.get).slots src n
  modify fun t => { t with slots := splice t.slots dst staged }

end Table

end WasmAot.Host
