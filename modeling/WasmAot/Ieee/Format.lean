/-
# Binary floating-point formats

A float is kept as its bit pattern, so that the payload of a NaN survives.  `Format.decode` reads a
pattern as an exact number `significand * 2 ^ exponent`, `Format.round` gives the pattern nearest
to such a number, and everything else (conversion between the formats, truncation to an integer,
order) is defined on top of the two, with no rounding in between.
-/

namespace WasmAot.Ieee

/-- A binary interchange format: a sign bit, an exponent field and a fraction field. -/
structure Format where
  exponentBits : Nat
  fractionBits : Nat

/-- The 32-bit format. -/
def single : Format := { exponentBits := 8, fractionBits := 23 }

/-- The 64-bit format. -/
def double : Format := { exponentBits := 11, fractionBits := 52 }

/-- What a bit pattern stands for.  Zero is finite with significand 0. -/
inductive Datum where
  | nan
  | infinite (negative : Bool)
  | finite (negative : Bool) (significand : Nat) (exponent : Int)
  deriving DecidableEq

namespace Format

variable (f : Format)

/-- Number of bits of a pattern. -/
def width : Nat := 1 + f.exponentBits + f.fractionBits

/-- The exponent of the last place of the smallest floats. -/
def minExponent : Int := 2 - (1 <<< (f.exponentBits - 1) : Nat) - f.fractionBits

/-- The pattern of positive infinity. -/
def infinity : Nat := (1 <<< f.exponentBits - 1) <<< f.fractionBits

/-- The sign bit, in its place. -/
def signBit (negative : Bool) : Nat :=
  if negative then 1 <<< (f.exponentBits + f.fractionBits) else 0

/-- The bit that makes a NaN quiet, in its place. -/
def quietBit : Nat := 1 <<< (f.fractionBits - 1)

/-- The pattern carries a sign bit. -/
def isNegative (bits : Nat) : Bool :=
  bits >>> (f.exponentBits + f.fractionBits) % 2 = 1

/-- The pattern without its sign bit. -/
def magnitude (bits : Nat) : Nat :=
  bits % (1 <<< (f.exponentBits + f.fractionBits))

/-- The pattern is a NaN of either sign. -/
def isNan (bits : Nat) : Bool :=
  f.infinity < f.magnitude bits

/-- The pattern is an infinity of either sign. -/
def isInfinite (bits : Nat) : Bool :=
  f.magnitude bits = f.infinity

/-- The exact value of a pattern. -/
def decode (bits : Nat) : Datum :=
  let negative := f.isNegative bits
  let fraction := bits % (1 <<< f.fractionBits)
  let exponent := bits >>> f.fractionBits % (1 <<< f.exponentBits)
  if f.isNan bits then .nan
  else if f.isInfinite bits then .infinite negative
  else if exponent = 0 then .finite negative fraction f.minExponent
  else .finite negative (1 <<< f.fractionBits + fraction) (f.minExponent + exponent - 1)

/-- The quotient of `n` by `2 ^ places`, rounded to the nearest, a half to the even neighbour. -/
def shiftRounded (n places : Nat) : Nat :=
  let quotient := n >>> places
  let twice := 2 * (n % (1 <<< places))
  if twice > 1 <<< places || (twice = 1 <<< places && quotient % 2 = 1) then quotient + 1
  else quotient

/-- The pattern of the float nearest to `significand * 2 ^ exponent`; what is too large becomes
infinite.  The pattern counts the floats below it, so a carry out of the significand lands in the
exponent field by itself. -/
def round (negative : Bool) (significand : Nat) (exponent : Int) : Nat :=
  let place : Int := max (exponent + significand.log2 - f.fractionBits) f.minExponent
  let kept :=
    if place ≤ exponent then significand <<< (exponent - place).toNat
    else shiftRounded significand (place - exponent).toNat
  let bits := (place - f.minExponent).toNat <<< f.fractionBits + kept
  f.signBit negative + (if significand = 0 then 0 else min bits f.infinity)

/-- The pattern in another format.  Finite numbers are rounded; a NaN keeps its sign and the
leading bits of its payload, and is made quiet. -/
def convert (g : Format) (bits : Nat) : Nat :=
  match f.decode bits with
  | .nan =>
    let payload := bits % (1 <<< (f.fractionBits - 1))
    let moved := payload <<< (g.fractionBits - 1) >>> (f.fractionBits - 1)
    g.signBit (f.isNegative bits) + g.infinity + g.quietBit + moved
  | .infinite negative => g.signBit negative + g.infinity
  | .finite negative significand exponent => g.round negative significand exponent

/-- The place of a pattern in the order of the floats; both zeros are at 0. -/
def rank (bits : Nat) : Int :=
  if f.isNegative bits then -(f.magnitude bits : Int) else f.magnitude bits

/-- Equality of numbers: no NaN equals anything, and the two zeros are equal. -/
def numEq (a b : Nat) : Bool :=
  !f.isNan a && !f.isNan b && f.rank a = f.rank b

end Format

/-- The integer part of a finite number, toward zero. -/
def truncate (negative : Bool) (significand : Nat) (exponent : Int) : Int :=
  let size : Nat :=
    if 0 ≤ exponent then significand <<< exponent.toNat
    else significand >>> (-exponent).toNat
  if negative then -(size : Int) else size

end WasmAot.Ieee
