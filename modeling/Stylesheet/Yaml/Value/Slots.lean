import Stylesheet.Yaml.Value

/-!
# The order of the members of a set

The members of a set are shown slot by slot. A set has at least eight slots, and from five members on more
than twice as many as members. A number has a residue, which is the same for equal numbers of any kind, and
the residue says which slots the number tries: the first one that is free is its own. The members come in
the order in which they are written.
-/

namespace Stylesheet.Yaml

/-- The prime modulo which residues are taken. Two to the power of 61 is one modulo it. -/
def residuePrime : Nat := Nat.pow 2 61 - 1

/-- A residue with its sign. Minus one is not used; minus two stands for it. -/
def signedResidue (negative : Bool) (residue : Nat) : Int :=
  if !negative then residue
  else if residue = 1 then -2
  else -residue

/-- The residue of a binary number. Powers of two repeat with their exponents modulo 61, also the negative
ones, so that a fraction has the residue of its quotient. -/
def binaryResidue? : Decimal.Binary → Option Int
  | .finite negative mantissa exponent =>
    some (signedResidue negative (mantissa * Nat.pow 2 (exponent.emod 61).toNat % residuePrime))
  | .infinite negative => some (signedResidue negative 314159)
  | .nan => none

/-- The residue of a value. Only numbers and empty texts have one. -/
def Value.residue? (v : Value) : Option Int :=
  match v.toInt?, v with
  | some n, _ => some (signedResidue (n < 0) (n.natAbs % residuePrime))
  | none, .float f => binaryResidue? (.ofFloat f)
  | none, .text [] => some 0
  | none, .bytes [] => some 0
  | none, _ => none

namespace Slots

def count (members : Nat) : Nat :=
  if members < 5 then 8 else Nat.pow 2 ((2 * members).log2 + 1)

/-- The slots that are tried together: a slot and the nine behind it, or the slot alone if they are not all
there. -/
def group (slots slot : Nat) : List Nat :=
  if slot + 9 < slots then List.range' slot 10 else [slot]

/-- The first free slot from `slot` on. Behind a group that is taken comes a slot that depends on what is
left of the residue; once nothing is left, the slots come in a cycle that has all of them, so `fuel` need
not exceed their number by more than the five-bit digits of a residue. -/
def free? (slots : Nat) (taken : List Nat) : (fuel slot left : Nat) → Option Nat
  | 0, _, _ => none
  | fuel + 1, slot, left =>
    match (group slots slot).find? fun s => !taken.contains s with
    | some s => some s
    | none => free? slots taken fuel ((slot * 5 + 1 + left / 32) % slots) (left / 32)

/-- The slot of a member with a residue, of which 64 bits count. -/
def slotOf (slots : Nat) (taken : List Nat) (residue : Int) : Nat :=
  let bits := (residue.emod (Nat.pow 2 64)).toNat
  (free? slots taken (slots + 13) (bits % slots) bits).getD slots

/-- The members with their slots, where some slots are taken. -/
def assign {α : Type} (slots : Nat) : (taken : List Nat) → List (Int × α) → List (Nat × α)
  | _, [] => []
  | taken, (residue, member) :: rest =>
    let slot := slotOf slots taken residue
    (slot, member) :: assign slots (slot :: taken) rest

/-- Members with their residues, in the order of their slots. -/
def placed {α : Type} (members : List (Int × α)) : List α :=
  ((assign (count members.length) [] members).mergeSort fun x y => x.1 ≤ y.1).map Prod.snd

end Slots

/-- The members of a set in the order in which they are shown. If one of them has no residue they stay as
they are written. -/
def Data.memberOrder (d : Data) (members : List Nat) : List Nat :=
  match members.mapM fun member => (d.value member).residue?.map (·, member) with
  | some found => Slots.placed found
  | none => members

end Stylesheet.Yaml
