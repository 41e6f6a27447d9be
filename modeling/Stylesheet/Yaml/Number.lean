import Stylesheet.Decimal.Read
import Stylesheet.Yaml.Token

/-!
# Numbers

Integers are binary, octal, hexadecimal, decimal or of base sixty with colons between the digits;
floating-point numbers are decimal or of base sixty. Underscores in them do not count.
-/

namespace Stylesheet.Yaml

open Text

def dropUnderscores (t : Text) : Text :=
  t.filter (· != '_')

/-- A text without its sign, which must not have been empty with it, and whether it is a minus. -/
def signed (t : Text) : Except Fault (Bool × Text) :=
  if t.isEmpty then .error .emptyNumber else .ok (Decimal.takeSign t)

/-- The value of a digit in any base up to sixteen. -/
def baseDigit? (c : Char) : Option Nat :=
  if 'a' ≤ c ∧ c ≤ 'f' then some (c.toNat - 87)
  else if 'A' ≤ c ∧ c ≤ 'F' then some (c.toNat - 55)
  else digitValue? c

def ofBaseDigits? (base : Nat) (digits : Text) : Option Nat :=
  if digits.isEmpty then none
  else digits.foldlM (fun n c => do
    let d ← baseDigit? c
    if d < base then some (n * base + d) else none) 0

/-- A text without the letter of its base behind a zero. -/
def dropBase (letter : Char) : Text → Text
  | '0' :: c :: t => if c = letter ∨ c = letter.toUpper then t else '0' :: c :: t
  | t => t

/-- An integer in a base with a letter, which may stand in front. There may be blanks around it. -/
def integerIn? (base : Nat) (letter : Char) (t : Text) : Option Int := do
  let (negative, digits) := Decimal.takeSign (trimNumeral t)
  let n ← ofBaseDigits? base (dropBase letter digits)
  return if negative then -n else n

/-- The greatest number of digits of an integer that is read or shown in base ten. -/
def digitLimit : Nat := 4300

/-- An integer in base ten. There may be blanks around it. -/
def decimal? (t : Text) : Option Int := do
  let (negative, digits) := Decimal.takeSign (trimNumeral t)
  if digitLimit < digits.length then none
  let n ← ofBaseDigits? 10 digits
  return if negative then -n else n

/-- An integer in base ten as text, unless it has too many digits. -/
def showInteger? (n : Int) : Option Text :=
  if Nat.pow 10 digitLimit ≤ n.natAbs then none
  else some (if n < 0 then '-' :: ofNat n.natAbs else ofNat n.natAbs)

/-- The number whose digits in base sixty are given, the highest first. -/
def sexagesimal (digits : List Int) : Int :=
  digits.foldl (fun n d => n * 60 + d) 0

/-- The integer that a text without its sign writes. -/
def magnitude? (t : Text) : Option Int :=
  match t with
  | '0' :: 'b' :: digits => integerIn? 2 'b' digits
  | '0' :: 'x' :: digits => integerIn? 16 'x' digits
  | '0' :: _ => if t = ['0'] then some 0 else integerIn? 8 'o' t
  | _ =>
    if t.contains ':' then ((split ':' t).mapM decimal?).map sexagesimal
    else decimal? t

def integer (t : Text) : Except Fault Int := do
  let (negative, digits) ← signed (dropUnderscores t)
  if digits.isEmpty then throw .emptyNumber
  match magnitude? digits with
  | some n => return if negative then -n else n
  | none => throw .noSuchValue

/-- The sum of digits in base sixty from the lowest on, of which the first counts `weight` times. A weight
is exact until a digit is multiplied by it. -/
def floatSexagesimal (sum : Float) (weight : Nat) : List Float → Except Fault Float
  | [] => .ok sum
  | d :: digits =>
    if Decimal.isOverflow weight then .error .tooLarge
    else floatSexagesimal (sum + d * Decimal.toFloat weight 0) (weight * 60) digits

/-- The floating-point number that a text without its sign writes. -/
def floatMagnitude (t : Text) : Except Fault Float :=
  if t = ".inf" then .ok (1.0 / 0.0)
  else if t = ".nan" then .ok (0.0 / 0.0)
  else if t.contains ':' then
    match (split ':' t).mapM Decimal.read? with
    | some digits => floatSexagesimal 0.0 1 digits.reverse
    | none => .error .noSuchValue
  else
    match Decimal.read? t with
    | some f => .ok f
    | none => .error .noSuchValue

def isNotNumber (t : Text) : Bool :=
  (Decimal.takeSign ((dropUnderscores t).map Char.toLower)).2 == ".nan".toList

def float (t : Text) : Except Fault Float := do
  let (negative, digits) ← signed ((dropUnderscores t).map Char.toLower)
  let f ← floatMagnitude digits
  return if negative then -f else f

end Stylesheet.Yaml
