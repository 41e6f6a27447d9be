import Stylesheet.Text.Quoted
import Stylesheet.Yaml.Cursor

/-!
# Scalars of YAML

Plain, quoted and block scalars, and how the lines of each are folded into one text.
-/

namespace Stylesheet.Yaml

open Text

/-- Ends of lines in a row, with what `skipping` passes over behind each of them. `fuel` bounds their
number. -/
def takeBreaks (skipping : Cursor → Cursor) : (fuel : Nat) → Cursor → Text × Cursor
  | 0, s => ([], s)
  | fuel + 1, s =>
    match s.takeBreak with
    | ([], _) => ([], s)
    | (here, s) =>
      let (later, s) := takeBreaks skipping fuel (skipping s)
      (here ++ later, s)

/-- What an end of line becomes where lines are folded: a space, unless empty lines follow. -/
def foldBreak (ending breaks : Text) : Text :=
  if ending ≠ ['\n'] then ending ++ breaks
  else if breaks.isEmpty then [' ']
  else breaks

/-- How many characters from here on belong to a plain scalar without a break in it. -/
def plainLength (flow : Bool) : Text → Nat
  | [] => 0
  | c :: t =>
    if atBlank (some c) then 0
    else if c = ':' ∧ (atBlank t.head? ∨ flow ∧ t.head?.any (",[]\x7b\x7d".toList.contains ·)) then 0
    else if flow ∧ ",?[]\x7b\x7d".toList.contains c then 0
    else plainLength flow t + 1

/-- The ends of lines between two lines of a plain scalar. There are none if a line that separates
documents follows. -/
def plainBreaks : (fuel : Nat) → Cursor → Except Fault (Option Text × Cursor)
  | 0, s => .ok (some [], s)
  | fuel + 1, s => do
    if ← s.atSeparator then return (none, s)
    let (_, s) ← s.scan (· == ' ')
    match s.takeBreak with
    | ([], _) => return (some [], s)
    | (here, s) =>
      let (later, s) ← plainBreaks fuel s
      return (later.map (here ++ ·), s)

/-- What stands between two parts of a plain scalar, whether it holds the end of a line, and the
cursor behind it. It is missing if the document ends there. -/
def plainGap (s : Cursor) : Except Fault (Option Text × Bool × Cursor) := do
  let (spaces, s) ← s.scan (· == ' ')
  match s.takeBreak with
  | ([], _) => return (some spaces, false, s)
  | (ending, s) =>
    let (breaks, s) ← plainBreaks s.rest.length.succ s
    return (breaks.map (foldBreak ending), true, s)

/-- A plain scalar from `s` on, behind `done` and the gap `gap`: its text, whether a simple key may
follow, and the cursor behind it. -/
def plain (flow : Bool) (indent : Int) :
    (fuel : Nat) → (gap done : Text) → (allowKey : Bool) → Cursor →
      Except Fault (Text × Bool × Cursor)
  | 0, _, done, allowKey, s => .ok (done, allowKey, s)
  | fuel + 1, gap, done, allowKey, s => do
    let length := plainLength flow s.rest
    s.reach (if s.peekAt length = some ':' then length + 1 else length)
    if length = 0 then return (done, allowKey, s)
    let done := done ++ gap ++ s.rest.take length
    let (gap, broken, s) ← plainGap (s.skip length)
    match gap with
    | some (c :: gap) =>
      if s.peek = some '#' ∨ (!flow ∧ (s.column : Int) < indent) then return (done, broken, s)
      else plain flow indent fuel (c :: gap) done broken s
    | _ => return (done, broken, s)

/-- The characters that stand behind a backslash for another one. -/
def escape? (c : Char) : Option Char :=
  match c with
  | '0' => some '\x00'
  | 'a' => some '\x07'
  | 'b' => some '\x08'
  | 't' => some '\t'
  | '\t' => some '\t'
  | 'n' => some '\n'
  | 'v' => some '\x0b'
  | 'f' => some '\x0c'
  | 'r' => some '\r'
  | 'e' => some '\x1b'
  | ' ' => some ' '
  | '"' => some '"'
  | '\\' => some '\\'
  | '/' => some '/'
  | 'N' => some '\x85'
  | '_' => some '\xa0'
  | 'L' => some '\u2028'
  | 'P' => some '\u2029'
  | _ => none

/-- How many hexadecimal digits follow a letter that writes a character by its number. -/
def escapeDigits? (c : Char) : Option Nat :=
  match c with
  | 'x' => some 2
  | 'u' => some 4
  | 'U' => some 8
  | _ => none

def hexValue? (c : Char) : Option Nat :=
  if c.isDigit then some (c.toNat - 48)
  else if 'a' ≤ c ∧ c ≤ 'f' then some (c.toNat - 87)
  else if 'A' ≤ c ∧ c ≤ 'F' then some (c.toNat - 55)
  else none

def hexNumber? (digits : Text) : Option Nat :=
  digits.foldlM (fun n c => (hexValue? c).map (n * 16 + ·)) 0

/-- The breaks between two lines of a quoted scalar; a line that separates documents must not stand
there. -/
def quotedBreaks : (fuel : Nat) → Cursor → Except Fault (Text × Cursor)
  | 0, s => .ok ([], s)
  | fuel + 1, s => do
    if ← s.atSeparator then throw .malformed
    let (_, s) ← s.scan fun c => c == ' ' || c == '\t'
    match s.takeBreak with
    | ([], _) => return ([], s)
    | (here, s) =>
      let (later, s) ← quotedBreaks fuel s
      return (here ++ later, s)

/-- What a backslash and the characters behind it stand for; the cursor is behind the backslash. -/
def quotedEscape (s : Cursor) : Except Fault (Text × Cursor) :=
  match s.peek with
  | none => .error s.early
  | some c =>
    match escape? c, escapeDigits? c with
    | some d, _ => .ok ([d], s.next)
    | none, some count =>
      let digits := s.next.rest.take count
      match hexNumber? digits with
      | none => .error .malformed
      | some n =>
        if digits.length < count then .error s.early
        else if 0x80000000 ≤ n then .error .tooLarge
        else if 0x110000 ≤ n then .error .noSuchValue
        else .ok ([if n.isValidChar then Char.ofNat n else '\ufffd'], s.next.skip count)
    | none, none =>
      if isBreak c then quotedBreaks s.rest.length.succ s.takeBreak.2 else .error .malformed

/-- A quoted scalar behind its opening quote, and the cursor behind the closing one. -/
def quoted (double : Bool) : (fuel : Nat) → Cursor → Except Fault (Text × Cursor)
  | 0, _ => .error .malformed
  | fuel + 1, s =>
    match s.peek with
    | none => .error s.early
    | some c =>
      if !double && c == '\'' then
        if s.peekAt 1 = some '\'' then continueWith fuel ['\''] (s.skip 2)
        else .ok ([], s.next)
      else if double && c == '"' then .ok ([], s.next)
      else if double && c == '\\' then do
        let (here, s) ← quotedEscape s.next
        continueWith fuel here s
      else if atBlank (some c) then
        let (spaces, s) := s.takeWhile fun c => c == ' ' || c == '\t'
        match s.takeBreak with
        | ([], _) => continueWith fuel spaces s
        | (ending, s) => do
          let (breaks, s) ← quotedBreaks s.rest.length.succ s
          continueWith fuel (foldBreak ending breaks) s
      else continueWith fuel [c] s.next
where
  continueWith (fuel : Nat) (here : Text) (s : Cursor) : Except Fault (Text × Cursor) := do
    let (later, s) ← quoted double fuel s
    return (here ++ later, s)

/-- What becomes of the ends of lines behind a block scalar. -/
inductive Chomping where
  | strip
  | clip
  | keep
deriving DecidableEq, Repr

def chomping? (c : Option Char) : Option Chomping :=
  match c with
  | some '+' => some .keep
  | some '-' => some .strip
  | _ => none

/-- The indentation that a digit asks for; zero cannot be asked for. -/
def indentation? (c : Option Char) : Except Fault (Option Nat) :=
  match c with
  | some c => if c = '0' then .error .malformed
    else if c.isDigit then .ok (some (c.toNat - 48)) else .ok none
  | none => .ok none

/-- The chomping and the indentation at the head of a block scalar, in either order. -/
def blockHead (s : Cursor) : Except Fault (Chomping × Option Nat × Cursor) := do
  match chomping? s.peek with
  | some chomping =>
    match ← indentation? s.next.peek with
    | some n => return (chomping, some n, s.skip 2)
    | none => return (chomping, none, s.next)
  | none =>
    match ← indentation? s.peek with
    | some n =>
      match chomping? s.next.peek with
      | some chomping => return (chomping, some n, s.skip 2)
      | none => return (.clip, some n, s.next)
    | none => return (.clip, none, s)

/-- The cursor behind the end of a line that has nothing more than spaces and a comment. -/
def endLine (s : Cursor) : Except Fault Cursor :=
  let s := (s.skipWhile (· == ' ')).skipComment
  if atBreak s.peek then .ok s.takeBreak.2 else .error .malformed

/-- The cursor behind spaces, as far as the column is below `indent`. -/
def skipIndent (indent : Nat) (s : Cursor) : Cursor :=
  s.skip (min (indent - s.column) (s.rest.takeWhile (· == ' ')).length)

/-- Empty lines in front of a line of a block scalar. -/
def blockBreaks (indent : Nat) (s : Cursor) : Text × Cursor :=
  takeBreaks (skipIndent indent) s.rest.length (skipIndent indent s)

/-- Empty lines at the front of a block scalar, and the greatest number of spaces in front of them
and of the line behind. -/
def blockIndent : (fuel : Nat) → Cursor → Text × Nat × Cursor
  | 0, s => ([], 0, s)
  | fuel + 1, s =>
    let s := s.skipWhile (· == ' ')
    match s.takeBreak with
    | ([], _) => ([], s.column, s)
    | (here, below) =>
      let (later, indent, below) := blockIndent fuel below
      (here ++ later, max s.column indent, below)

def atWhite (s : Cursor) : Bool :=
  s.peek.any fun c => c == ' ' || c == '\t'

/-- The lines of a block scalar with `breaks` in front of the next one: their text, the end of the
last line, the breaks behind it, and the cursor there. -/
def blockLines (folded : Bool) (indent : Nat) :
    (fuel : Nat) → (breaks ending : Text) → Cursor → Text × Text × Text × Cursor
  | 0, breaks, ending, s => ([], ending, breaks, s)
  | fuel + 1, breaks, ending, s =>
    if s.column = indent ∧ s.peek.isSome then
      let (line, below) := s.takeWhile (!isBreak ·)
      let (ending, below) := below.takeBreak
      let (later, below) := blockBreaks indent below
      let joint :=
        if below.column = indent ∧ below.peek.isSome then
          if folded && ending == ['\n'] && !atWhite s && !atWhite below then
            if later.isEmpty then [' '] else []
          else ending
        else []
      let (text, last) := blockLines folded indent fuel later ending below
      (breaks ++ line ++ joint ++ text, last)
    else ([], ending, breaks, s)

/-- A block scalar behind its indicator, in a block of the given indentation. -/
def block (folded : Bool) (indent : Int) (s : Cursor) : Except Fault (Text × Cursor) := do
  let (chomping, increment, s) ← blockHead s
  if !atSpace s.peek then throw .malformed
  let s ← endLine s
  let least := (max 1 (indent + 1)).toNat
  let (breaks, indent, s) :=
    match increment with
    | some n =>
      let indent := least + n - 1
      let (breaks, s) := blockBreaks indent s
      (breaks, indent, s)
    | none =>
      let (breaks, found, s) := blockIndent s.rest.length.succ s
      (breaks, max least found, s)
  let (text, ending, breaks, s) := blockLines folded indent s.rest.length.succ breaks [] s
  return match chomping with
    | .strip => (text, s)
    | .clip => (text ++ ending, s)
    | .keep => (text ++ ending ++ breaks, s)

end Stylesheet.Yaml
