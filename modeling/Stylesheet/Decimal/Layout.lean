import Stylesheet.Decimal.Shortest

/-!
# Layout of decimals

How a double is written: positionally from a ten-thousandth up to `10 ^ 16`, else with an exponent of
at least two digits; a whole number keeps `.0`.
-/

namespace Stylesheet.Decimal

open Text

/-- The layout of the digits and the point of a decimal. -/
def Numeral.layout (d : Numeral) : Text :=
  let digits := ofNat d.digits
  if d.point ≤ -4 ∨ 16 < d.point then
    let exponent := d.point - 1
    let magnitude := ofNat exponent.natAbs
    let front := match digits with
      | [] => []
      | [c] => [c]
      | c :: rest => c :: '.' :: rest
    front ++ (if exponent < 0 then "e-" else "e+") ++
      (if magnitude.length < 2 then '0' :: magnitude else magnitude)
  else if d.point ≤ 0 then "0." ++ List.replicate (-d.point).toNat '0' ++ digits
  else
    let whole := d.point.toNat
    if digits.length ≤ whole then digits ++ List.replicate (whole - digits.length) '0' ++ ".0"
    else digits.take whole ++ "." ++ digits.drop whole

/-- The sign of a number; only a minus is written. -/
def sign (negative : Bool) : Text :=
  if negative then ['-'] else []

def Binary.render : Binary → Text
  | .nan => "nan"
  | .infinite negative => sign negative ++ "inf"
  | .finite negative mantissa exponent =>
    if mantissa = 0 then sign negative ++ "0.0"
    else sign negative ++ (shortest mantissa exponent).layout

def render (f : Float) : Text :=
  (Binary.ofFloat f).render

end Stylesheet.Decimal
