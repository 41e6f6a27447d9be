/-!
# Binary numbers

A floating-point number of double precision is zero, a natural number times a power of two, an
infinity, or no number.
-/

namespace Stylesheet.Decimal

inductive Binary where
  /-- `mantissa * 2 ^ exponent`, or its opposite. -/
  | finite (negative : Bool) (mantissa : Nat) (exponent : Int)
  | infinite (negative : Bool)
  | nan
deriving DecidableEq, Repr

def leastExponent : Int := -1074

/-- The least mantissa of a double that is not close to zero. -/
def hiddenBit : Nat := Nat.pow 2 52

def Binary.ofBits (bits : Nat) : Binary :=
  let negative := bits / Nat.pow 2 63 % 2 == 1
  let exponent : Nat := bits / Nat.pow 2 52 % Nat.pow 2 11
  let fraction := bits % Nat.pow 2 52
  if exponent = 2047 then if fraction = 0 then .infinite negative else .nan
  else if exponent = 0 then .finite negative fraction leastExponent
  else .finite negative (hiddenBit + fraction) ((exponent : Int) - 1075)

def Binary.ofFloat (f : Float) : Binary :=
  .ofBits f.toBits.toNat

def Binary.isInt (b : Binary) (i : Int) : Bool :=
  match b with
  | .finite negative mantissa exponent =>
    let signed : Int := if negative then -mantissa else mantissa
    signed * Nat.pow 2 exponent.toNat == i * Nat.pow 2 (-exponent).toNat
  | _ => false

end Stylesheet.Decimal
