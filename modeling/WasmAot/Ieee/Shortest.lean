/-
# The shortest decimal that reads back

Every real number between the two midpoints around a float reads back as that float; the midpoints
themselves do when the significand is even, since ties go to the even neighbour.  `shortest` walks
down the decimal grids, from one coarser than the float, and stops at the first grid that has a
point in this interval.  Only the two points next to the float need to be looked at.
-/
import WasmAot.Ieee.Format

namespace WasmAot.Ieee

/-- The number `digits * 10 ^ exponent`. -/
structure Decimal where
  digits : Nat
  exponent : Int
  deriving DecidableEq

/-- The interval of the reals that read back as a float, in units of `2 ^ unit`. -/
structure Neighbourhood where
  low : Nat
  middle : Nat
  high : Nat
  unit : Int
  /-- the ends belong to the interval -/
  closed : Bool

/-- The interval around the float `significand * 2 ^ exponent`, in quarters of its last place.
Below a power of two the floats lie twice as close. -/
def Format.neighbourhood (f : Format) (significand : Nat) (exponent : Int) : Neighbourhood :=
  let closeBelow := significand = 1 <<< f.fractionBits && f.minExponent < exponent
  { low := 4 * significand - (if closeBelow then 1 else 2)
    middle := 4 * significand
    high := 4 * significand + 2
    unit := exponent - 2
    closed := significand % 2 = 0 }

/-- Numerator and denominator of `2 ^ unit / 10 ^ place`. -/
def gridRatio (unit place : Int) : Nat × Nat :=
  (Nat.pow 10 (-place).toNat <<< unit.toNat, Nat.pow 10 place.toNat <<< (-unit).toNat)

/-- The point `c * 10 ^ place` lies in the interval. -/
def Neighbourhood.contains (v : Neighbourhood) (place : Int) (c : Nat) : Bool :=
  let (num, den) := gridRatio v.unit place
  if v.closed then v.low * num ≤ c * den && c * den ≤ v.high * num
  else v.low * num < c * den && c * den < v.high * num

/-- The point of the grid `10 ^ place` that stands for the float, if one lies in the interval: of
two such points the nearer, and the upper one if the float is half way between them. -/
def Neighbourhood.onGrid (v : Neighbourhood) (place : Int) : Option Nat :=
  let (num, den) := gridRatio v.unit place
  let below := v.middle * num / den
  let upperNearer := den ≤ 2 * (v.middle * num - below * den)
  match 0 < below && v.contains place below, v.contains place (below + 1) with
  | true, true => some (if upperNearer then below + 1 else below)
  | true, false => some below
  | false, true => some (below + 1)
  | false, false => none

/-- Walks down the grids until one of them has a point. -/
def Neighbourhood.search (v : Neighbourhood) : Nat → Int → Decimal
  | 0, place => { digits := v.middle * (gridRatio v.unit place).1 / (gridRatio v.unit place).2,
                  exponent := place }
  | steps + 1, place =>
    match v.onGrid place with
    | some digits => { digits, exponent := place }
    | none => v.search steps (place - 1)

/-- A power of ten above the positive number `significand * 2 ^ exponent`, at most three too
high: `log10 2` lies between 0.30102 and 0.30103. -/
def gridAbove (significand : Nat) (exponent : Int) : Int :=
  (exponent + significand.log2 + 1) * 30103 / 100000 + 1

/-- The shortest decimal that reads back as the positive float; of several, the nearest.  Seventeen
digits always suffice. -/
def Format.shortest (f : Format) (significand : Nat) (exponent : Int) : Decimal :=
  (f.neighbourhood significand exponent).search 24 (gridAbove significand exponent)

end WasmAot.Ieee
