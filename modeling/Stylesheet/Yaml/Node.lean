import Stylesheet.Yaml.Tag
import Stylesheet.Yaml.Token

/-!
# Nodes

The nodes of a document are scalars, sequences and mappings. They are numbered in the order in which
they begin, and a collection names its parts by number: a node with an anchor can be part of several
others, also of itself.
-/

namespace Stylesheet.Yaml

open Text

inductive Content where
  | scalar (text : Text)
  | sequence (items : List Nat)
  | mapping (entries : List (Nat × Nat))
deriving DecidableEq

structure Node where
  tag : Tag
  content : Content
deriving DecidableEq

structure Composer where
  rest : List Token
  /-- What the handles of tags stand for. -/
  handles : List (Text × Text)
  nodes : Array Node := #[]
  anchors : List (Text × Nat) := []

inductive Place where
  | flow
  | block
  /-- Where a key or a value of a block mapping is; a sequence there need not be indented. -/
  | entry
deriving DecidableEq

structure Properties where
  anchor : Option Text := none
  tag : Option Text := none

namespace Composer

def peek (c : Composer) : Option Token :=
  c.rest.head?

def next (c : Composer) : Composer :=
  { c with rest := c.rest.tail }

/-- The fault of a token that may not stand where it is. -/
def fault (c : Composer) : Fault :=
  match c.peek with
  | some (.unreadable fault) => fault
  | _ => .malformed

def expect (c : Composer) (token : Token) : Except Fault Composer :=
  if c.peek = some token then .ok c.next else .error c.fault

/-- Adds a node, under its anchor if it has one. -/
def add (c : Composer) (anchor : Option Text) (node : Node) : Nat × Composer :=
  let number := c.nodes.size
  (number, { c with
    nodes := c.nodes.push node
    anchors := match anchor with
      | some name => (name, number) :: c.anchors
      | none => c.anchors })

def fill (c : Composer) (number : Nat) (content : Content) : Composer :=
  { c with nodes := c.nodes.modify number ({ · with content }) }

/-- Adds a node for a value that is not written. -/
def addEmpty (c : Composer) : Nat × Composer :=
  c.add none ⟨.null, .scalar []⟩

def tagName (c : Composer) (handle : Option Text) (suffix : Text) : Except Fault Text :=
  match handle with
  | none => .ok suffix
  | some handle =>
    match c.handles.lookup handle with
    | some stands => .ok (stands ++ suffix)
    | none => .error .malformed

/-- An anchor and a tag in front of a node, in either order. -/
def properties (c : Composer) : Except Fault (Properties × Composer) :=
  match c.rest with
  | .anchor a :: .tag handle suffix :: rest | .tag handle suffix :: .anchor a :: rest => do
    return ({ anchor := some a, tag := some (← c.tagName handle suffix) }, { c with rest })
  | .anchor a :: rest => .ok ({ anchor := some a }, { c with rest })
  | .tag _ _ :: .unreadable fault :: _ => .error fault
  | .tag handle suffix :: rest => do
    return ({ tag := some (← c.tagName handle suffix) }, { c with rest })
  | _ => .ok ({}, c)

/-- The tag of a node that has none written, or a tag that leaves it open. -/
def tagOr (tag : Option Text) (standard : Tag) : Tag :=
  match tag with
  | none => standard
  | some ['!'] => standard
  | some name => .ofName name

/-- The tag of a scalar: by its form if it is plain or its tag leaves that open, else a text. -/
def scalarTag (tag : Option Text) (text : Text) (plain : Bool) : Tag :=
  tagOr tag (if plain || tag.isSome then .ofForm text else .text)

/-- Whether the next token is one of those that leave the node before them empty. -/
def isAt (c : Composer) (tokens : List Token) : Bool :=
  c.peek.any tokens.contains

mutual

def node : (fuel : Nat) → Place → Composer → Except Fault (Nat × Composer)
  | 0, _, _ => .error .malformed
  | fuel + 1, place, c =>
    match c.peek with
    | some (.alias name) =>
      match c.anchors.lookup name with
      | some number => .ok (number, c.next)
      | none => .error .malformed
    | _ => do
      let (p, c) ← c.properties
      if let some (.unreadable fault) := c.peek then throw fault
      if p.anchor.any fun name => (c.anchors.lookup name).isSome then throw .malformed
      let start (c : Composer) (tag : Tag) (content : Content) :=
        c.add p.anchor ⟨tagOr p.tag tag, content⟩
      match c.peek, place with
      | some .blockEntry, .entry =>
        let (number, c) := start c .sequence (.sequence [])
        let (items, c) ← looseItems fuel c
        return (number, c.fill number (.sequence items))
      | some (.scalar text plain), _ =>
        return c.next.add p.anchor ⟨scalarTag p.tag text plain, .scalar text⟩
      | some .flowSequenceStart, _ =>
        let (number, c) := start c.next .sequence (.sequence [])
        let (items, c) ← flowItems fuel true c
        return (number, c.fill number (.sequence items))
      | some .flowMappingStart, _ =>
        let (number, c) := start c.next .mapping (.mapping [])
        let (entries, c) ← flowEntries fuel true c
        return (number, c.fill number (.mapping entries))
      | some .blockSequenceStart, .block | some .blockSequenceStart, .entry =>
        let (number, c) := start c.next .sequence (.sequence [])
        let (items, c) ← blockItems fuel c
        return (number, c.fill number (.sequence items))
      | some .blockMappingStart, .block | some .blockMappingStart, .entry =>
        let (number, c) := start c.next .mapping (.mapping [])
        let (entries, c) ← blockEntries fuel c
        return (number, c.fill number (.mapping entries))
      | _, _ =>
        if p.anchor.isSome || p.tag.isSome then
          return c.add p.anchor ⟨scalarTag p.tag [] true, .scalar []⟩
        else throw c.fault

/-- Reads a node, or an empty one in front of one of the given tokens. -/
def nodeBefore (ends : List Token) : (fuel : Nat) → Place → Composer → Except Fault (Nat × Composer)
  | 0, _, _ => .error .malformed
  | fuel + 1, place, c => if c.isAt ends then .ok c.addEmpty else node fuel place c

/-- Reads the value of an entry, which is empty if no colon is there. -/
def valueBefore (ends : List Token) : (fuel : Nat) → Place → Composer → Except Fault (Nat × Composer)
  | 0, _, _ => .error .malformed
  | fuel + 1, place, c =>
    if c.peek = some .value then nodeBefore ends fuel place c.next else .ok c.addEmpty

/-- Reads the items of a sequence that is not indented. -/
def looseItems : (fuel : Nat) → Composer → Except Fault (List Nat × Composer)
  | 0, _ => .error .malformed
  | fuel + 1, c =>
    if c.peek = some .blockEntry then do
      let (item, c) ← nodeBefore [.blockEntry, .key, .value, .blockEnd] fuel .block c.next
      let (items, c) ← looseItems fuel c
      return (item :: items, c)
    else .ok ([], c)

def blockItems : (fuel : Nat) → Composer → Except Fault (List Nat × Composer)
  | 0, _ => .error .malformed
  | fuel + 1, c =>
    if c.peek = some .blockEntry then do
      let (item, c) ← nodeBefore [.blockEntry, .blockEnd] fuel .block c.next
      let (items, c) ← blockItems fuel c
      return (item :: items, c)
    else return ([], ← c.expect .blockEnd)

def blockEntries : (fuel : Nat) → Composer → Except Fault (List (Nat × Nat) × Composer)
  | 0, _ => .error .malformed
  | fuel + 1, c =>
    if c.peek = some .key then do
      let (key, c) ← nodeBefore [.key, .value, .blockEnd] fuel .entry c.next
      let (value, c) ← valueBefore [.key, .value, .blockEnd] fuel .entry c
      let (entries, c) ← blockEntries fuel c
      return ((key, value) :: entries, c)
    else return ([], ← c.expect .blockEnd)

/-- Reads the items of a sequence in brackets and the closing bracket. A single entry may stand there
in place of a mapping. -/
def flowItems : (fuel : Nat) → (first : Bool) → Composer → Except Fault (List Nat × Composer)
  | 0, _, _ => .error .malformed
  | fuel + 1, first, c =>
    if c.peek = some .flowSequenceEnd then .ok ([], c.next)
    else do
      let c ← if first then pure c else c.expect .flowEntry
      if c.peek = some .key then
        let (number, c) := c.next.add none ⟨.mapping, .mapping []⟩
        let (key, c) ← nodeBefore [.value, .flowEntry, .flowSequenceEnd] fuel .flow c
        let (value, c) ← valueBefore [.flowEntry, .flowSequenceEnd] fuel .flow c
        let (items, c) ← flowItems fuel false (c.fill number (.mapping [(key, value)]))
        return (number :: items, c)
      else if c.peek = some .flowSequenceEnd then return ([], c.next)
      else
        let (item, c) ← node fuel .flow c
        let (items, c) ← flowItems fuel false c
        return (item :: items, c)

/-- Reads the entries of a mapping in braces and the closing brace. -/
def flowEntries : (fuel : Nat) → (first : Bool) → Composer →
    Except Fault (List (Nat × Nat) × Composer)
  | 0, _, _ => .error .malformed
  | fuel + 1, first, c =>
    if c.peek = some .flowMappingEnd then .ok ([], c.next)
    else do
      let c ← if first then pure c else c.expect .flowEntry
      if c.peek = some .key then
        let (key, c) ← nodeBefore [.value, .flowEntry, .flowMappingEnd] fuel .flow c.next
        let (value, c) ← valueBefore [.flowEntry, .flowMappingEnd] fuel .flow c
        let (entries, c) ← flowEntries fuel false c
        return ((key, value) :: entries, c)
      else if c.peek = some .flowMappingEnd then return ([], c.next)
      else
        let (key, c) ← node fuel .flow c
        let (value, c) := c.addEmpty
        let (entries, c) ← flowEntries fuel false c
        return ((key, value) :: entries, c)

end

end Composer

def standardHandles : List (Text × Text) :=
  [("!", "!"), ("!!", tagFront)]

/-- The directives at the front, checked, as the handles that they give, and the tokens behind them. The
version is given once at most, and so is each handle. -/
def handlesOf : (versioned : Bool) → (handles : List (Text × Text)) → List Token →
    Except Fault (List (Text × Text) × List Token)
  | versioned, handles, .directive d :: rest =>
    match d with
    | .version major =>
      if versioned ∨ major ≠ 1 then .error .malformed else handlesOf true handles rest
    | .handle name stands =>
      if (handles.lookup name).isSome then .error .malformed
      else handlesOf versioned (handles ++ [(name, stands)]) rest
    | .other => handlesOf versioned handles rest
  | _, handles, rest => .ok (handles ++ standardHandles, rest)

/-- The nodes of the single document that tokens write, and the number of its root. There is none in an
empty text. -/
def nodesOf (tokens : List Token) : Except Fault (Option (Nat × Array Node)) := do
  let fuel := 4 * tokens.length + 4
  let finish (root : Nat) (c : Composer) : Except Fault (Option (Nat × Array Node)) :=
    match c.rest.dropWhile (· == Token.documentEnd) with
    | [] => .ok (some (root, c.nodes))
    | rest => do
      let (_, rest) ← handlesOf false [] rest
      throw { c with rest }.fault
  match tokens with
  | [] => return none
  | .directive _ :: _ | .documentStart :: _ =>
    let (handles, rest) ← handlesOf false [] tokens
    let c : Composer := { rest, handles }
    let c ← c.expect .documentStart
    let atEnd := match c.peek with
      | none | some .documentStart | some .documentEnd | some (.directive _) => true
      | _ => false
    let (root, c) ← if atEnd then pure c.addEmpty else c.node fuel .block
    finish root c
  | rest =>
    let c : Composer := { rest, handles := standardHandles }
    let (root, c) ← c.node fuel .block
    finish root c

end Stylesheet.Yaml
