import Stylesheet.Text.Basic

/-!
# Reading decimals

A decimal numeral is an optional sign, digits of any script with at most one point among them, and an
optional exponent; an underscore may stand between two digits. The names of infinity and of the value
that is no number are read without regard to case.
-/

namespace Stylesheet.Decimal

open Text

/-- A text without its underscores, if each of them stands between two digits. -/
def dropUnderscores? : (afterDigit : Bool) → Text → Option Text
  | _, [] => some []
  | afterDigit, c :: t =>
    if c = '_' then
      if afterDigit && t.head?.any isDigit then dropUnderscores? false t else none
    else (dropUnderscores? (isDigit c) t).map (c :: ·)

/-- The number that digits of any script stand for. -/
def ofDigits (digits : Text) : Nat :=
  digits.foldl (fun n c => n * 10 + (digitValue? c).getD 0) 0

/-- A sign at the front of a text, and the rest. -/
def takeSign : Text → Bool × Text
  | '-' :: t => (true, t)
  | '+' :: t => (false, t)
  | t => (false, t)

/-- The exponent behind the digits of a numeral; there may be none. -/
def exponent? : Text → Option Int
  | [] => some 0
  | c :: t =>
    if c = 'e' ∨ c = 'E' then
      let (negative, digits) := takeSign t
      if !digits.isEmpty && digits.all isDigit then
        let n : Int := ofDigits digits
        some (if negative then -n else n)
      else none
    else none

/-- The double nearest to `digits * 10 ^ exponent`. An exponent far out of range is not carried out. -/
def toFloat (digits : Nat) (exponent : Int) : Float :=
  if digits = 0 then 0.0
  else
    let magnitude := exponent + (ofNat digits).length
    if 400 < magnitude then 1.0 / 0.0
    else if magnitude < -400 then 0.0
    else if exponent < 0 then Float.ofScientific digits true exponent.natAbs
    else Float.ofScientific digits false exponent.natAbs

def unsigned? (t : Text) : Option Float :=
  let folded := fold t
  if folded = "inf" ∨ folded = "infinity" then some (1.0 / 0.0)
  else if folded = "nan" then some (0.0 / 0.0)
  else
    let whole := t.takeWhile isDigit
    let (fraction, rest) :=
      match t.dropWhile isDigit with
      | '.' :: behind => (behind.takeWhile isDigit, behind.dropWhile isDigit)
      | rest => ([], rest)
    if whole.isEmpty && fraction.isEmpty then none
    else (exponent? rest).map fun e => toFloat (ofDigits (whole ++ fraction)) (e - fraction.length)

/-- Whether a number is so large that no double is near to it: it lies halfway between the greatest double
and the power of two above, or beyond. -/
def isOverflow (n : Nat) : Bool :=
  Nat.pow 2 1024 - Nat.pow 2 970 ≤ n

/-- The number of a numeral, which may have blanks around it. -/
def read? (t : Text) : Option Float := do
  let (negative, rest) := takeSign (← dropUnderscores? false (trimNumeral t))
  let f ← unsigned? rest
  return if negative then -f else f

end Stylesheet.Decimal
