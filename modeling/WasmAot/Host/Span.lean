/-
# Ranges of arrays

Memories and tables read and write whole ranges.  Every operation checks the ranges that it uses one
by one, and writes after the last check.
-/
import WasmAot.Host.Trap

namespace WasmAot.Host

variable {α : Type}

/-- There are `len` entries from `offset` on. -/
def fits (xs : Array α) (offset len : Nat) : Bool :=
  offset + len ≤ xs.size

/-- Traps unless there are `len` entries from `offset` on. -/
def checkRange (t : Trap) (xs : Array α) (offset len : Nat) : Except Trap Unit :=
  if fits xs offset len then .ok () else .error t

/-- The `len` entries from `offset` on. -/
def slice (xs : Array α) (offset len : Nat) : Array α :=
  xs.extract offset (offset + len)

/-- The array with new entries from `offset` on; all others stay. -/
def splice (xs : Array α) (offset : Nat) (entries : Array α) : Array α :=
  xs.extract 0 offset ++ entries ++ xs.extract (offset + entries.size) xs.size

end WasmAot.Host
