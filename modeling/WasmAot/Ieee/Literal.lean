/-
# Float literals

A float is written with the shortest decimal that reads back as the same bits.  Numbers from one
ten-thousandth up to ten to the sixteenth are written positionally, with at least one digit after
the point; the others with an exponent.  A NaN is given by its bits and an infinity by its name.
-/
import WasmAot.Ieee.Shortest
import WasmAot.Text.Digits

namespace WasmAot.Ieee

/-- The number without its sign, as written in source. -/
def Decimal.text (d : Decimal) : String :=
  let digits := Text.decimal d.digits
  let lead : Int := d.exponent + digits.length - 1
  if -4 ≤ lead && lead < 16 then
    if 0 ≤ d.exponent then
      String.ofList (digits ++ List.replicate d.exponent.toNat '0' ++ ['.', '0'])
    else if 0 ≤ lead then
      String.ofList (digits.take (lead.toNat + 1) ++ ['.'] ++ digits.drop (lead.toNat + 1))
    else
      String.ofList (['0', '.'] ++ List.replicate (-lead - 1).toNat '0' ++ digits)
  else
    let fraction := if digits.length = 1 then [] else '.' :: digits.drop 1
    String.ofList (digits.take 1 ++ fraction ++ ['e']) ++ toString lead

/-- The literal of a bit pattern, with the name of its type as suffix. -/
def Format.literal (f : Format) (type : String) (bits : Nat) : String :=
  match f.decode bits with
  | .nan => type ++ "::from_bits(" ++ Text.hexPadded (f.width / 4) bits ++ ")"
  | .infinite false => type ++ "::INFINITY"
  | .infinite true => type ++ "::NEG_INFINITY"
  | .finite negative significand exponent =>
    let number := if significand = 0 then "0.0" else (f.shortest significand exponent).text
    Text.signed negative (number ++ type)

end WasmAot.Ieee
