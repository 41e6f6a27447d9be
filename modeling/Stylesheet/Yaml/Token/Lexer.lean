import Stylesheet.Yaml.Number
import Stylesheet.Yaml.Source
import Stylesheet.Yaml.Token.Scalar

/-!
# Reading tokens

The lexer goes through a YAML text once. A key of a block is known as one only when its colon comes, so
the lexer remembers where a key may have begun and puts the tokens for it there later. Such a key ends
on the line where it begins and has at most 1024 characters.
-/

namespace Stylesheet.Yaml

open Text

/-- A place where a key without an indicator may have begun. -/
structure PossibleKey where
  /-- How many tokens come before it. -/
  position : Nat
  /-- Whether it must turn out to be a key, since the block of a mapping goes on there. -/
  required : Bool
  index : Nat
  line : Nat
  column : Nat

structure Lexer where
  cursor : Cursor
  tokens : Array Token := #[]
  /-- How many brackets and braces are open. -/
  flow : Nat := 0
  /-- The column of the innermost open block. -/
  indent : Int := -1
  /-- The columns of the blocks around it. -/
  outer : List Int := []
  /-- Places where keys may have begun, by the number of open brackets. -/
  keys : List (Nat × PossibleKey) := []
  allowKey : Bool := true

namespace Lexer

/-- Closes the blocks that begin to the right of a column. -/
def closeBlocks (column indent : Int) (tokens : Array Token) : List Int → Int × List Int × Array Token
  | [] => (indent, [], tokens)
  | next :: outer =>
    if column < indent then closeBlocks column next (tokens.push .blockEnd) outer
    else (indent, next :: outer, tokens)

/-- Closes the blocks that begin to the right of a column, outside brackets. -/
def unwind (l : Lexer) (column : Int) : Lexer :=
  if l.flow ≠ 0 then l
  else
    let (indent, outer, tokens) := closeBlocks column l.indent l.tokens l.outer
    { l with indent, outer, tokens }

/-- Opens a block at a column, if it lies to the right of the open one; the token for it goes to
`position`. -/
def openBlock (l : Lexer) (column position : Nat) (token : Token) : Lexer :=
  if l.indent < column then
    { l with
      indent := column
      outer := l.indent :: l.outer
      tokens := l.tokens.insertIdxIfInBounds position token }
  else l

def push (l : Lexer) (token : Token) : Lexer :=
  { l with tokens := l.tokens.push token }

def skip (l : Lexer) (n : Nat) : Lexer :=
  { l with cursor := l.cursor.skip n }

/-- Forgets a key that may have begun at this level; one that is required may not be forgotten. -/
def dropKey (l : Lexer) : Except Fault Lexer :=
  if l.keys.any fun (level, key) => level == l.flow && key.required then .error .malformed
  else .ok { l with keys := l.keys.filter fun (level, _) => level != l.flow }

/-- Remembers that a key may begin here. -/
def saveKey (l : Lexer) : Except Fault Lexer :=
  if !l.allowKey then .ok l
  else do
    let l ← l.dropKey
    let key : PossibleKey := {
      position := l.tokens.size
      required := l.flow == 0 && l.indent == l.cursor.column
      index := l.cursor.index
      line := l.cursor.line
      column := l.cursor.column }
    return { l with keys := (l.flow, key) :: l.keys }

/-- Forgets the keys that can no longer be keys, because their line has ended or they are too long. -/
def dropStaleKeys (l : Lexer) : Except Fault Lexer :=
  let stale (key : PossibleKey) := key.line != l.cursor.line || key.index + 1024 < l.cursor.index
  if l.keys.any fun (_, key) => stale key && key.required then .error .malformed
  else .ok { l with keys := l.keys.filter fun (_, key) => !stale key }

/-- Goes on behind spaces, comments and ends of lines. A key may begin on a new line outside brackets. -/
def skipToToken : (fuel : Nat) → Lexer → Lexer
  | 0, l => l
  | fuel + 1, l =>
    let cursor := (l.cursor.skipWhile (· == ' ')).skipComment
    match cursor.takeBreak with
    | ([], _) => { l with cursor }
    | (_, cursor) => skipToToken fuel { l with cursor, allowKey := l.allowKey || l.flow == 0 }

/-- Whether a character may belong to the name of an anchor, a directive or a tag handle. -/
def isNameLetter (c : Char) : Bool :=
  c.isAlphanum || c == '-' || c == '_'

def isTagLetter (c : Char) : Bool :=
  c.isAlphanum || "-;/?:@&=+$,_.!~*'()[]%".toList.contains c

/-- The bytes of a tag that are written as hexadecimal numbers behind percent signs, and the rest; or the
text from where no such number can go on. -/
def percentBytes : (fuel : Nat) → Text → Except Text (List UInt8 × Text)
  | 0, t => .ok ([], t)
  | fuel + 1, '%' :: t =>
    match t.take 2, hexNumber? (t.take 2) with
    | [_, _], some n => (percentBytes fuel (t.drop 2)).map fun (bytes, rest) => (n.toUInt8 :: bytes, rest)
    | _, _ => .error (t.dropWhile fun c => (hexValue? c).isSome)
  | _ + 1, t => .ok ([], t)

/-- A run of tag letters with percent signs resolved, or the text from where that shows to be impossible. -/
def decodeTag : (fuel : Nat) → Text → Except Text Text
  | 0, _ => .ok []
  | _ + 1, [] => .ok []
  | fuel + 1, c :: t =>
    if c = '%' then do
      let (bytes, rest) ← percentBytes (t.length + 1) (c :: t)
      match Utf8.decode bytes with
      | .ok text => (decodeTag fuel rest).map (text ++ ·)
      | .error _ => throw rest
    else (decodeTag fuel t).map (c :: ·)

def tagText (s : Cursor) : Except Fault (Text × Cursor) := do
  let (run, s) := s.takeWhile isTagLetter
  match decodeTag (run.length + 1) run with
  | .ok text =>
    s.reach 0
    if run.isEmpty then throw .malformed
    return (text, s)
  | .error rest =>
    if rest.isEmpty then s.reach 0
    throw .malformed

/-- A tag handle: exclamation marks around a name, or a single one in front of a space. -/
def tagHandle (s : Cursor) : Except Fault (Text × Cursor) := do
  s.reach 0
  if s.peek ≠ some '!' then throw .malformed
  s.reach 1
  if s.peekAt 1 = some ' ' then return (['!'], s.next)
  let (name, s) ← s.next.scan isNameLetter
  if s.peek ≠ some '!' then throw .malformed
  return ('!' :: name ++ ['!'], s.next)

def tag (s : Cursor) : Except Fault (Token × Cursor) := do
  s.reach 1
  let word := s.next.rest.takeWhile fun c => !atSpace (some c)
  let (token, s) ←
    if s.peekAt 1 = some '<' then do
      let (suffix, s) ← tagText (s.skip 2)
      if s.peek ≠ some '>' then throw .malformed
      pure (Token.tag none suffix, s.next)
    else if atBlank (s.peekAt 1) then pure (Token.tag none ['!'], s.next)
    else if word.contains '!' then do
      let (handle, s) ← tagHandle s
      let (suffix, s) ← tagText s
      pure (Token.tag (some handle) suffix, s)
    else do
      s.next.reach word.length
      let (suffix, s) ← tagText s.next
      pure (Token.tag (some ['!']) suffix, s)
  if atSpace s.peek then return (token, s) else throw .malformed

def number (s : Cursor) : Except Fault (Nat × Cursor) := do
  let (digits, s) ← s.scan Char.isDigit
  if digits.isEmpty then throw .malformed
  if digitLimit < digits.length then throw .noSuchValue
  return (Decimal.ofDigits digits, s)

def directive (s : Cursor) : Except Fault (Directive × Cursor) := do
  let (name, s) ← s.scan isNameLetter
  if name.isEmpty || !atSpace s.peek then throw .malformed
  if name = "YAML" then
    let (major, s) ← number (s.skipWhile (· == ' '))
    if s.peek ≠ some '.' then throw .malformed
    let (_, s) ← number s.next
    if !atSpace s.peek then throw .malformed
    return (.version major, ← endLine s)
  else if name = "TAG" then
    let (handle, s) ← tagHandle (s.skipWhile (· == ' '))
    s.reach 0
    if s.peek ≠ some ' ' then throw .malformed
    let (stands, s) ← tagText (s.skipWhile (· == ' '))
    if !atSpace s.peek then throw .malformed
    return (.handle handle stands, ← endLine s)
  else return (.other, ← endLine (s.skipWhile (!isBreak ·)))

/-- The name of an anchor or alias behind its indicator. -/
def anchorName (s : Cursor) : Except Fault (Text × Cursor) := do
  let (name, s) ← s.scan isNameLetter
  if !name.isEmpty && (atBlank s.peek || s.peek.any ("?:,]\x7d%@`".toList.contains ·)) then
    return (name, s)
  else throw .malformed

/-- A token that begins a scalar or a node, and could be the front of a key. -/
def node (l : Lexer) (read : Lexer → Except Fault (Token × Cursor)) : Except Fault Lexer := do
  let l ← l.saveKey
  let (token, cursor) ← read l
  return { l with tokens := l.tokens.push token, cursor, allowKey := false }

def separator (l : Lexer) (token : Token) : Except Fault Lexer := do
  let l ← (l.unwind (-1)).dropKey
  return (l.push token).skip 3 |> fun l => { l with allowKey := false }

def openFlow (l : Lexer) (token : Token) : Except Fault Lexer := do
  let l ← l.saveKey
  return { (l.push token).skip 1 with flow := l.flow + 1, allowKey := true }

def closeFlow (l : Lexer) (token : Token) : Except Fault Lexer := do
  let l ← l.dropKey
  return { (l.push token).skip 1 with flow := l.flow - 1, allowKey := false }

def flowEntry (l : Lexer) : Except Fault Lexer := do
  let l ← l.dropKey
  return { (l.push .flowEntry).skip 1 with allowKey := true }

/-- A hyphen in front of an entry, or a question mark in front of a key. Outside brackets it begins a
block, where a key may begin. -/
def blockMark (l : Lexer) (start mark : Token) (allowKey : Bool) : Except Fault Lexer := do
  if l.flow = 0 ∧ !l.allowKey then throw .malformed
  let l := if l.flow = 0 then l.openBlock l.cursor.column l.tokens.size start else l
  let l ← l.dropKey
  return { (l.push mark).skip 1 with allowKey }

/-- A colon behind a key. If a key may have begun without an indicator, it was one. -/
def value (l : Lexer) : Except Fault Lexer :=
  match l.keys.find? fun (level, _) => level == l.flow with
  | some (_, key) =>
    let l := { l with
      keys := l.keys.filter fun (level, _) => level != l.flow
      tokens := l.tokens.insertIdxIfInBounds key.position .key
      allowKey := false }
    let l := if l.flow = 0 then l.openBlock key.column key.position .blockMappingStart else l
    .ok ((l.push .value).skip 1)
  | none => blockMark l .blockMappingStart .value (l.flow == 0)

def blockScalar (l : Lexer) (folded : Bool) : Except Fault Lexer := do
  let l ← l.dropKey
  let (text, cursor) ← block folded l.indent l.cursor.next
  return { l with tokens := l.tokens.push (.scalar text false), cursor, allowKey := true }

def quotedScalar (l : Lexer) (double : Bool) : Except Fault Lexer :=
  l.node fun l => do
    let (text, cursor) ← quoted double (l.cursor.rest.length + 1) l.cursor.next
    return (.scalar text false, cursor)

/-- A plain scalar. A key may follow it if it ended with its line. -/
def plainScalar (l : Lexer) : Except Fault Lexer := do
  let l ← l.saveKey
  let (text, allowKey, cursor) ←
    plain (l.flow != 0) (l.indent + 1) (l.cursor.rest.length + 1) [] [] false l.cursor
  return { l with tokens := l.tokens.push (.scalar text true), cursor, allowKey }

def indicators : Text := "-?:,[]\x7b\x7d#&*!|>'\"%@`"

/-- Whether the character behind an indicator counts: behind a hyphen it does, and behind a question mark or
a colon outside brackets. -/
def isPaired (l : Lexer) (c : Char) : Bool :=
  c == '-' || (l.flow == 0 && (c == '?' || c == ':'))

/-- Whether a plain scalar begins with `c`. A hyphen, a question mark or a colon may begin one if no
blank follows, the last two only outside brackets. -/
def beginsPlain (l : Lexer) (c : Char) : Bool :=
  !(atBlank (some c) || indicators.contains c) || (!atBlank (l.cursor.peekAt 1) && l.isPaired c)

/-- Whether a line begins here, with the character `c`, that separates documents. -/
def separates (l : Lexer) (c : Char) : Except Fault Bool :=
  if (c = '-' ∨ c = '.') ∧ l.cursor.column = 0 then l.cursor.atSeparator else .ok false

def token (l : Lexer) (c : Char) : Except Fault Lexer := do
  if ← l.separates c then
    return ← l.separator (if c = '-' then .documentStart else .documentEnd)
  if l.isPaired c then l.cursor.reach 1
  let blankNext := atBlank (l.cursor.peekAt 1)
  if c = '%' ∧ l.cursor.column = 0 then
    let l ← (l.unwind (-1)).dropKey
    let (d, cursor) ← directive l.cursor.next
    return { l with tokens := l.tokens.push (.directive d), cursor, allowKey := false }
  else if c = '[' then l.openFlow .flowSequenceStart
  else if c = '\x7b' then l.openFlow .flowMappingStart
  else if c = ']' then l.closeFlow .flowSequenceEnd
  else if c = '\x7d' then l.closeFlow .flowMappingEnd
  else if c = ',' then l.flowEntry
  else if c = '-' ∧ blankNext then l.blockMark .blockSequenceStart .blockEntry true
  else if c = '?' ∧ (l.flow ≠ 0 ∨ blankNext) then l.blockMark .blockMappingStart .key (l.flow == 0)
  else if c = ':' ∧ (l.flow ≠ 0 ∨ blankNext) then l.value
  else if c = '*' then l.node fun l => (anchorName l.cursor.next).map fun (n, s) => (.alias n, s)
  else if c = '&' then l.node fun l => (anchorName l.cursor.next).map fun (n, s) => (.anchor n, s)
  else if c = '!' then l.node fun l => tag l.cursor
  else if c = '|' ∧ l.flow = 0 then l.blockScalar false
  else if c = '>' ∧ l.flow = 0 then l.blockScalar true
  else if c = '\'' then l.quotedScalar false
  else if c = '"' then l.quotedScalar true
  else if l.beginsPlain c then l.plainScalar
  else
    l.cursor.reach 1
    throw .malformed

/-- Reads one token and what closes in front of it; there is none at the end of the text. -/
def step (l : Lexer) : Except Fault (Lexer × Bool) := do
  let l := skipToToken (l.cursor.rest.length + 1) l
  l.cursor.reach 0
  let l ← l.dropStaleKeys
  let l := l.unwind l.cursor.column
  match l.cursor.peek with
  | none => return (← (l.unwind (-1)).dropKey, false)
  | some c =>
    let l ← l.token c
    l.cursor.reach 0
    return (l, true)

/-- How many tokens are settled: from a possible key on, they wait for the colon that makes it a key. -/
def settled (l : Lexer) : Nat :=
  match l.dropStaleKeys with
  | .ok l => l.keys.foldl (fun least (_, key) => min least key.position) l.tokens.size
  | .error _ => l.tokens.size

/-- The tokens with a fault behind those that are settled. -/
def fail (l : Lexer) (fault : Fault) : Array Token :=
  (l.tokens.take l.settled).push (.unreadable fault)

/-- Reads tokens to the end of the text, or to where it cannot be read. Every token takes a character,
so `fuel` need not exceed the number of characters by more than one. -/
def run : (fuel : Nat) → Lexer → Array Token
  | 0, l => l.tokens.push (.unreadable .malformed)
  | fuel + 1, l =>
    match l.step with
    | .error fault => l.fail fault
    | .ok (l, true) => run fuel l
    | .ok (l, false) => l.tokens

end Lexer

/-- The tokens of a YAML text. A byte order mark at the front does not count. -/
def Token.ofSource (s : Source) : List Token :=
  let start : Cursor := { rest := s.text, ending := s.ending }
  let cursor := if start.peek = some '\ufeff' then start.next else start
  (Lexer.run (s.text.length + 1) { cursor }).toList

end Stylesheet.Yaml
