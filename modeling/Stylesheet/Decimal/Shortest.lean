import Stylesheet.Decimal.Binary
import Stylesheet.Text.Basic

/-!
# Shortest decimals

A positive double is written with the fewest digits that read back as the same double, and of several
such decimals with the one nearest to it. A decimal reads back as the double if it lies between the
midpoints to the neighbouring doubles; the midpoints themselves read back if the mantissa is even.
-/

namespace Stylesheet.Decimal

/-- The number `0.d₁d₂… * 10 ^ point` with the decimal digits of `digits`, of which neither the first
nor the last is zero. -/
structure Numeral where
  digits : Nat
  /-- Where the point stands, counted from the front of the digits. -/
  point : Int
deriving DecidableEq, Repr

/-- The quotient of two natural numbers that stands for `mantissa * 2 ^ exponent`. -/
def quotient (mantissa : Nat) (exponent : Int) : Nat × Nat :=
  (mantissa * Nat.pow 2 exponent.toNat, Nat.pow 2 (-exponent).toNat)

/-- How many digits a natural number has; zero has none. -/
def countDigits (n : Nat) : Nat :=
  if n = 0 then 0 else countDigits (n / 10) + 1
termination_by n

/-- How many zeros follow the point in `num / den`, which is less than one; `fuel` bounds them. -/
def leadingZeros : (fuel : Nat) → (num den : Nat) → Nat
  | 0, _, _ => 0
  | fuel + 1, num, den => if den ≤ num * 10 then 0 else leadingZeros fuel (num * 10) den + 1

/-- The point of a positive number `num / den`: it lies below `10 ^ point` and not below a tenth of
that. -/
def pointOf (num den : Nat) : Int :=
  if den ≤ num then countDigits (num / den) else -(leadingZeros 400 num den : Int)

/-- A natural number without the zeros at its end. -/
def dropZeros (n : Nat) : Nat :=
  if n = 0 then 0 else if n % 10 = 0 then dropZeros (n / 10) else n
termination_by n

/-- The bounds of the decimals that read back as a double, in quarters of its last place, and the
double itself in the same unit. -/
structure Interval where
  low : Nat
  value : Nat
  high : Nat
  /-- Whether the bounds read back too. -/
  closed : Bool

/-- The decimals that read back as `mantissa * 2 ^ exponent`. Below a power of two the doubles lie
closer together. -/
def Interval.of (mantissa : Nat) (exponent : Int) : Interval where
  low := 4 * mantissa - (if mantissa = hiddenBit ∧ exponent ≠ leastExponent then 1 else 2)
  value := 4 * mantissa
  high := 4 * mantissa + 2
  closed := mantissa % 2 == 0

/-- Whether `n` lies in the interval, if a quarter of the last place is `num / den`. -/
def Interval.contains (i : Interval) (num den n : Nat) : Bool :=
  let x := n * den
  (i.low * num < x && x < i.high * num) ||
    (i.closed && (x == i.low * num || x == i.high * num))

/-- The natural number in the interval that is nearest to the double, if a quarter of the last place
is `num / den`. A tie goes to the even one. -/
def Interval.nearest? (i : Interval) (num den : Nat) : Option Nat :=
  let below := i.value * num / den
  let rest := i.value * num - below * den
  let order :=
    if rest * 2 < den || (rest * 2 == den && below % 2 == 0) then [below, below + 1]
    else [below + 1, below]
  order.find? (i.contains num den)

def search (i : Interval) (exponent point : Int) : (fuel count : Nat) → Numeral
  | 0, _ => ⟨0, point⟩
  | fuel + 1, count =>
    -- One unit of the last of `count` digits is `10 ^ (point - count)`.
    let scale := point - count
    let num := Nat.pow 2 (exponent - 2).toNat * Nat.pow 10 (-scale).toNat
    let den := Nat.pow 2 (2 - exponent).toNat * Nat.pow 10 scale.toNat
    match i.nearest? num den with
    | some n =>
      let point := if countDigits n = count then point else point + 1
      ⟨dropZeros n, point⟩
    | none => search i exponent point fuel (count + 1)

/-- The shortest decimal of a positive double. Seventeen digits are always enough. -/
def shortest (mantissa : Nat) (exponent : Int) : Numeral :=
  let (num, den) := quotient mantissa exponent
  search (.of mantissa exponent) exponent (pointOf num den) 17 1

end Stylesheet.Decimal
