/-
# Sets of code points

Two ways to write down a set of code points: by the places where a scan enters and leaves the set,
which suits the properties that hold of whole blocks, and by runs with a step, which suits the
alphabets in which capital and small letters alternate.
-/

namespace WasmAot.Text

/-- Membership in the set with the given bounds, in increasing order: the first member, the first
code point after it that is no member, the next member and so on.  Every bound that is passed turns
the answer over. -/
def inBounds : List Nat → Nat → Bool
  | [], _ => false
  | bound :: bounds, n => if n < bound then false else !inBounds bounds n

/-- The code points `first`, `first + step` and so on up to `last`. -/
structure CodeRun where
  first : Nat
  last : Nat
  step : Nat

/-- The code point lies on the run. -/
def CodeRun.contains (r : CodeRun) (n : Nat) : Bool :=
  r.first ≤ n && n ≤ r.last && (n - r.first) % r.step == 0

/-- The code point lies on one of the runs. -/
def inRuns (runs : List CodeRun) (n : Nat) : Bool :=
  runs.any (·.contains n)

/-- Holds of a character by one rule in ASCII and by another beyond. -/
def byBlock (ascii : Char → Bool) (beyond : Nat → Bool) (c : Char) : Bool :=
  if c.toNat < 0x80 then ascii c else beyond c.toNat

end WasmAot.Text
