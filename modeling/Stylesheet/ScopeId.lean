import Stylesheet.Text.Basic

/-!
# Scope ids

The scope id of a text is the letter `t` and a numeral in base 36: the magnitude of a 32-bit rolling
hash over the UTF-16 units of the text.
-/

namespace Stylesheet.ScopeId

def units (c : Char) : List Nat :=
  if c.toNat < 0x10000 then [c.toNat]
  else [0xd800 + (c.toNat - 0x10000) / 0x400, 0xdc00 + (c.toNat - 0x10000) % 0x400]

/-- The hash of some units: each step multiplies by 31 and adds the unit, modulo `2 ^ 32`. -/
def hash (us : List Nat) : Nat :=
  us.foldl (fun h u => (h * 31 + u) % Nat.pow 2 32) 0

/-- The magnitude of a number below `2 ^ 32` that is read as signed. -/
def magnitude (h : Nat) : Nat :=
  if h < Nat.pow 2 31 then h else Nat.pow 2 32 - h

def digit (n : Nat) : Char :=
  if n < 10 then Char.ofNat (48 + n) else Char.ofNat (87 + n)

def base36 (n : Nat) : Text :=
  if n < 36 then [digit n] else base36 (n / 36) ++ [digit (n % 36)]
termination_by n

def ofText (t : Text) : Text :=
  't' :: (base36 (magnitude (hash (t.flatMap units)))).take 6

end Stylesheet.ScopeId
