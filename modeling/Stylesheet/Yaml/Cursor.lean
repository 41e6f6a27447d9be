import Stylesheet.Yaml.Token

/-!
# Cursors

A cursor stands in a YAML text and knows the line and the column. Lines end at a line feed, a carriage
return, a next-line character, or a line or paragraph separator.
-/

namespace Stylesheet.Yaml

structure Cursor where
  rest : Text
  /-- The number of characters before. -/
  index : Nat := 0
  /-- The number of lines before. -/
  line : Nat := 0
  /-- The number of characters before in this line. -/
  column : Nat := 0
  /-- What follows the text, if it cannot be read to its end. -/
  ending : Option Fault := none

def isBreak (c : Char) : Bool :=
  c == '\n' || c == '\r' || c == '\x85' || c == '\u2028' || c == '\u2029'

/-- Whether nothing follows, or the end of a line. -/
def atBreak (c : Option Char) : Bool :=
  c.all isBreak

/-- Whether nothing follows, or the end of a line, or a space. -/
def atSpace (c : Option Char) : Bool :=
  c.all fun c => isBreak c || c == ' '

/-- Whether nothing follows, or the end of a line, or a space or tab. -/
def atBlank (c : Option Char) : Bool :=
  c.all fun c => isBreak c || c == ' ' || c == '\t'

namespace Cursor

def peek (s : Cursor) : Option Char :=
  s.rest.head?

/-- What is wrong if the text must not end yet. -/
def early (s : Cursor) : Fault :=
  s.ending.getD .malformed

def peekAt (s : Cursor) (n : Nat) : Option Char :=
  (s.rest.drop n).head?

/-- Looks at the character after `n` others, which is a fault if the text cannot be read that far. -/
def reach (s : Cursor) (n : Nat) : Except Fault Unit :=
  match s.ending with
  | some fault => if (s.rest.drop n).isEmpty then .error fault else .ok ()
  | none => .ok ()

/-- The cursor behind the next character. A byte order mark takes no column. -/
def next (s : Cursor) : Cursor :=
  match s.rest with
  | [] => s
  | c :: rest =>
    if isBreak c && !(c == '\r' && rest.head? == some '\n') then
      { s with rest, index := s.index + 1, line := s.line + 1, column := 0 }
    else
      { s with
        rest
        index := s.index + 1
        column := if c = '\ufeff' then s.column else s.column + 1 }

def skip (s : Cursor) : Nat → Cursor
  | 0 => s
  | n + 1 => s.next.skip n

/-- The longest run of characters of a class, and the cursor behind it. -/
def takeWhile (s : Cursor) (p : Char → Bool) : Text × Cursor :=
  let run := s.rest.takeWhile p
  (run, s.skip run.length)

def skipWhile (s : Cursor) (p : Char → Bool) : Cursor :=
  (s.takeWhile p).2

/-- The longest run of characters of a class, found by a look at the character behind it. -/
def scan (s : Cursor) (p : Char → Bool) : Except Fault (Text × Cursor) := do
  let (run, s) := s.takeWhile p
  s.reach 0
  return (run, s)

/-- The end of a line as it counts in a scalar, and the cursor behind it. Line feed, carriage return
and next-line character all count as a line feed. -/
def takeBreak (s : Cursor) : Text × Cursor :=
  match s.rest with
  | '\r' :: '\n' :: _ => (['\n'], s.skip 2)
  | c :: _ =>
    if c = '\u2028' ∨ c = '\u2029' then ([c], s.next)
    else if isBreak c then (['\n'], s.next)
    else ([], s)
  | [] => ([], s)

/-- Whether a line begins here that separates documents. -/
def atSeparator (s : Cursor) : Except Fault Bool := do
  s.reach 2
  let mark := s.rest.take 3
  if mark = ['-', '-', '-'] ∨ mark = ['.', '.', '.'] then
    s.reach 3
    return atBlank (s.peekAt 3)
  else return false

/-- The cursor behind a comment, if one begins here. -/
def skipComment (s : Cursor) : Cursor :=
  if s.peek = some '#' then s.skipWhile (!isBreak ·) else s

end Cursor

end Stylesheet.Yaml
