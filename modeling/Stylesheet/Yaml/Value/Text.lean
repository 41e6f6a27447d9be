import Stylesheet.Decimal.Layout
import Stylesheet.Yaml.Value.Slots

/-!
# The text of values

A scalar is its own text. Inside a collection texts are quoted and dates are named as such. A
collection that is part of itself is shown as dots there. An integer with too many digits has no text.

* `load`: the documents that token files hold.
-/

namespace Stylesheet.Yaml

open Text

/-- Pieces with commas between them, in brackets. -/
def bracketed (left right : Char) (pieces : List Text) : Text :=
  left :: join ", " pieces ++ [right]

def elided (left right : Char) : Text :=
  bracketed left right ["..."]

/-- Something that can be part of itself. -/
inductive Whole where
  | value (number : Nat)
  | pair (number index : Nat)
deriving DecidableEq

namespace Data

/-- How many things there are that can be part of themselves, at most. -/
def wholes (d : Data) : Nat :=
  d.values.foldl (fun count value =>
    match value with
    | .pairs items => count + 1 + items.length
    | _ => count + 1) 0

/-- The text of the pair at an index of a sequence of pairs, where `active` are the things around it and
`part` gives the text of a value inside it. -/
def quotePair (number : Nat) (active : List Whole) (part : List Whole → Nat → Option Text)
    (index : Nat) (pair : Nat × Nat) : Option Text := do
  let whole := Whole.pair number index
  if active.contains whole then return elided '(' ')'
  let part := part (whole :: active)
  return bracketed '(' ')' [← part pair.1, ← part pair.2]

/-- The text of a value inside a larger one, where `active` are the things around it. They are all
different, so `fuel` need not exceed their number by more than one. -/
def quote (d : Data) : (fuel : Nat) → (active : List Whole) → (number : Nat) → Option Text
  | 0, _, _ => some "..."
  | fuel + 1, active, number =>
    let whole := Whole.value number
    let collection (left right : Char) (parts : List Whole → Option (List Text)) :
        Option Text := do
      if active.contains whole then return elided left right
      return bracketed left right (← parts (whole :: active))
    match d.value number with
    | .null => some "None"
    | .bool true => some "True"
    | .bool false => some "False"
    | .int n => showInteger? n
    | .float f => some (Decimal.render f)
    | .notNumber => some "nan"
    | .text t => some (Text.quote t)
    | .bytes bytes => some (quoteBytes bytes)
    | .time t => some t.quote
    | .sequence items => collection '[' ']' fun active => items.mapM (d.quote fuel active)
    | .pairs items => collection '[' ']' fun active =>
      items.zipIdx.mapM fun (pair, index) => quotePair number active (d.quote fuel) index pair
    | .mapping entries => collection '\x7b' '\x7d' fun active =>
      entries.mapM fun (key, value) => do
        return (← d.quote fuel active key) ++ ": " ++ (← d.quote fuel active value)
    | .set [] => some "set()"
    | .set members => collection '\x7b' '\x7d' fun active =>
      (d.memberOrder members).mapM (d.quote fuel active)

def text (d : Data) (number : Nat) : Option Text :=
  match d.value number with
  | .text t => some t
  | .time t => some t.render
  | _ => d.quote (d.wholes + 1) [] number

/-- The texts of the pairs of a sequence of pairs. -/
def pairTexts (d : Data) (number : Nat) (items : List (Nat × Nat)) : List (Option Text) :=
  items.zipIdx.map fun (pair, index) => quotePair number [] (d.quote (d.wholes + 1)) index pair

/-! ## Documents -/

def item (d : Data) (number : Nat) : Token.Item :=
  match d.value number with
  | .sequence items => .sequence (items.map d.text)
  | .pairs items => .sequence (d.pairTexts number items)
  | _ => .other (d.text number)

def filing (d : Data) (number : Nat) : Token.Filing :=
  match d.value number with
  | .mapping entries => .table (entries.map fun (name, value) => (d.text name, d.item value))
  | _ => .other

def content (d : Data) : Token.Content :=
  match d.value d.root with
  | .null => .nothing
  | .mapping entries => .mapping (entries.map fun (name, value) => (d.text name, d.filing value))
  | _ => .other

end Data

def load : Token.Loader := fun bytes => do
  match ← Data.ofSource (.ofBytes bytes) with
  | none => return .nothing
  | some data => return data.content

end Stylesheet.Yaml
