import Stylesheet.Decimal.Binary
import Stylesheet.Yaml.Bytes
import Stylesheet.Yaml.Node
import Stylesheet.Yaml.Number
import Stylesheet.Yaml.Token.Lexer

/-!
# Values

Every node of a document stands for a value. The values of scalars are found when the collection
around them is, and collections wait until those found before them are done, so faults come up level by
level.
-/

namespace Stylesheet.Yaml

open Text

/-- What a node stands for. Collections name their parts by number. -/
inductive Value where
  | null
  | bool (b : Bool)
  | int (n : Int)
  | float (f : Float)
  /-- The value that is no number, by its name. -/
  | notNumber
  | text (t : Text)
  | bytes (bytes : List UInt8)
  | time (t : Time)
  | sequence (items : List Nat)
  | pairs (items : List (Nat × Nat))
  | mapping (entries : List (Nat × Nat))
  | set (members : List Nat)

namespace Value

def isKey : Value → Bool
  | sequence _ | pairs _ | mapping _ | set _ => false
  | _ => true

/-- A truth value or an integer as an integer. -/
def toInt? : Value → Option Int
  | bool b => some (if b then 1 else 0)
  | int n => some n
  | _ => none

/-- Whether the values of two nodes are the same key. Truth values are numbers here, and numbers that are
equal are the same whether they have a point or not. -/
def isSame (v w : Value) : Bool :=
  match v.toInt?, w.toInt? with
  | some m, some n => m == n
  | some m, none => match w with
    | float f => (Decimal.Binary.ofFloat f).isInt m
    | _ => false
  | none, some n => match v with
    | float f => (Decimal.Binary.ofFloat f).isInt n
    | _ => false
  | none, none => match v, w with
    | null, null => true
    | float f, float g => f == g
    | notNumber, notNumber => true
    | text t, text u => t == u
    | bytes a, bytes b => a == b
    | time t, time u => t.isSame u
    | _, _ => false

end Value

/-- The words for truth values, without regard to case. -/
def boolOf (t : Text) : Except Fault Bool :=
  let word := t.map Char.toLower
  if word = "yes" ∨ word = "true" ∨ word = "on" then .ok true
  else if word = "no" ∨ word = "false" ∨ word = "off" then .ok false
  else .error .unknownWord

structure Builder where
  /-- The nodes, in which merged mappings replace the key that asks for them. -/
  nodes : Array Node
  /-- The values found so far; a collection has no parts as long as it waits. -/
  values : Array (Option Value)
  /-- The collections that wait. -/
  waiting : List Nat := []

namespace Builder

def node (b : Builder) (number : Nat) : Node :=
  b.nodes[number]?.getD ⟨.unknown, .scalar []⟩

/-- The text of a scalar, or of the value that stands for a whole mapping. -/
def scalarText (b : Builder) : (fuel : Nat) → (number : Nat) → Except Fault Text
  | 0, _ => .error .malformed
  | fuel + 1, number =>
    match (b.node number).content with
    | .scalar text => .ok text
    | .sequence _ => .error .malformed
    | .mapping entries =>
      match entries.find? fun (key, _) => (b.node key).tag = .default with
      | some (_, value) => b.scalarText fuel value
      | none => .error .malformed

/-- The value of a node as far as it can be told without its parts, and whether it has to wait for
them. -/
def front (b : Builder) (number : Nat) : Except Fault (Value × Bool) :=
  let text := b.scalarText (b.nodes.size + 1) number
  match (b.node number).tag with
  | .null => text.map fun _ => (.null, false)
  | .bool => (text >>= boolOf).map fun b => (.bool b, false)
  | .int => (text >>= integer).map fun n => (.int n, false)
  | .float => do
    let text ← text
    let f ← float text
    return (if isNotNumber text then .notNumber else .float f, false)
  | .text => text.map fun t => (.text t, false)
  | .bytes => (text >>= Yaml.bytes).map fun bytes => (.bytes bytes, false)
  | .time => do
    let _ ← text
    match (b.node number).content with
    | .scalar written => return (.time (← Time.read written), false)
    | _ => throw .notScalar
  | .sequence => .ok (.sequence [], true)
  | .mapping => .ok (.mapping [], true)
  | .pairs => .ok (.pairs [], true)
  | .set => .ok (.set [], true)
  | .merge | .default | .unknown => .error .malformed

/-- Finds the value of a node, unless it is known. -/
def enter (b : Builder) (number : Nat) : Except Fault Builder :=
  match b.values[number]? with
  | some none => do
    let (value, waits) ← b.front number
    return { b with
      values := b.values.set! number (some value)
      waiting := if waits then b.waiting ++ [number] else b.waiting }
  | _ => .ok b

def value (b : Builder) (number : Nat) : Value :=
  (b.values[number]?.join).getD .null

def entries (b : Builder) (number : Nat) : List (Nat × Nat) :=
  match (b.node number).content with
  | .mapping entries => entries
  | _ => []

def setContent (b : Builder) (number : Nat) (content : Content) : Builder :=
  { b with nodes := b.nodes.modify number ({ · with content }) }

/-- Makes the key of a value that stands for a whole mapping an ordinary one. -/
def plainKey (b : Builder) (number : Nat) : Builder :=
  if (b.node number).tag = .default then
    { b with nodes := b.nodes.modify number ({ · with tag := .text }) }
  else b

/-- Whether an entry asks for the entries of other mappings. -/
def isMerge (b : Builder) (entry : Nat × Nat) : Bool :=
  (b.node entry.1).tag == .merge

/-- The mappings that the value of a merge key names. -/
def mergeSources (b : Builder) (value : Nat) : List Nat :=
  match (b.node value).content with
  | .sequence items => items
  | _ => [value]

/-- Puts `merged` and the entries of merged mappings in front of the own entries of a mapping. Of several
mappings in a sequence the first comes last, so that it wins. A merge key is gone before its mappings are
looked at, which may be the same mapping again; so `fuel` need not exceed the number of merge keys by more
than one. -/
def flatten : (fuel : Nat) → (number : Nat) → (merged : List (Nat × Nat)) → Builder →
    Except Fault Builder
  | 0, _, _, _ => .error .malformed
  | fuel + 1, number, merged, b =>
    let entries := b.entries number
    match entries.find? b.isMerge with
    | some entry => do
      let b := b.setContent number (.mapping (entries.eraseP b.isMerge))
      let (front, b) ← (b.mergeSources entry.2).foldlM (fun (front, b) source =>
        match (b.node source).content with
        | .mapping _ => do
          let b ← flatten fuel source [] b
          return (b.entries source ++ front, b)
        | _ => throw .malformed) ([], b)
      flatten fuel number (merged ++ front) b
    | none =>
      .ok (entries.foldl (fun b entry => b.plainKey entry.1)
        (b.setContent number (.mapping (merged ++ entries))))

def mergeCount (b : Builder) : Nat :=
  b.nodes.foldl (fun count node =>
    match node.content with
    | .mapping entries => count + entries.countP b.isMerge
    | _ => count) 0

/-- Adds an entry to a mapping. A key that is there already keeps its place. -/
def assign (b : Builder) (entry : Nat × Nat) : List (Nat × Nat) → List (Nat × Nat)
  | [] => [entry]
  | first :: rest =>
    if first.1 == entry.1 || (b.value first.1).isSame (b.value entry.1) then (first.1, entry.2) :: rest
    else first :: b.assign entry rest

def readMapping (b : Builder) (number : Nat) : Except Fault (List (Nat × Nat) × Builder) :=
  match (b.node number).content with
  | .mapping _ => do
    let b ← b.flatten (b.mergeCount + 1) number []
    (b.entries number).foldlM (fun (found, b) (key, value) => do
      let b ← b.enter key
      if !(b.value key).isKey then throw .malformed
      let b ← b.enter value
      return (b.assign (key, value) found, b)) ([], b)
  | _ => .error .malformed

/-- Finds the parts of a collection and gives it its value. -/
def complete (b : Builder) (number : Nat) : Except Fault Builder := do
  let finish (b : Builder) (value : Value) :=
    { b with values := b.values.set! number (some value) }
  match (b.node number).tag, (b.node number).content with
  | .sequence, .sequence items =>
    let b ← items.foldlM enter b
    return finish b (.sequence items)
  | .pairs, .sequence items =>
    let (pairs, b) ← items.foldlM (fun (pairs, b) item =>
      match (b.node item).content with
      | .mapping [(key, value)] => do
        return (pairs ++ [(key, value)], ← (← b.enter key).enter value)
      | _ => throw .malformed) ([], b)
    return finish b (.pairs pairs)
  | .mapping, _ =>
    let (entries, b) ← b.readMapping number
    return finish b (.mapping entries)
  | .set, _ =>
    let (entries, b) ← b.readMapping number
    return finish b (.set (entries.map Prod.fst))
  | _, _ => throw .malformed

/-- Finds the parts of the collections that wait, and of those inside them. Every node waits once at
most, so `fuel` need not exceed the number of nodes. -/
def run : (fuel : Nat) → Builder → Except Fault Builder
  | 0, b => .ok b
  | fuel + 1, b =>
    match b.waiting with
    | [] => .ok b
    | number :: waiting => do run fuel (← complete { b with waiting } number)

end Builder

structure Data where
  root : Nat
  values : Array Value

def Data.value (d : Data) (number : Nat) : Value :=
  d.values[number]?.getD .null

/-- The data that a YAML text stands for; an empty text stands for nothing. -/
def Data.ofSource (s : Source) : Except Fault (Option Data) := do
  match ← nodesOf (Token.ofSource s) with
  | none => return none
  | some (root, nodes) =>
    let b : Builder := { nodes, values := nodes.map fun _ => none }
    let b ← Builder.run nodes.size (← b.enter root)
    return some { root, values := b.values.map (·.getD .null) }

end Stylesheet.Yaml
