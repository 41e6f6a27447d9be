import Stylesheet.Text.Basic

/-!
# Paths

A path is what a user writes to name a file: names separated by slashes, of which empty ones and
single dots do not count. A location is what a path comes down to: the names of the directories from
the root, without dots. There are no symbolic links, so two dots always undo the name before them.
-/

namespace Stylesheet

open Text

/-- The names from the root of the file system down to a file. -/
abbrev Location := List Text

def Location.render (l : Location) : Text :=
  "/" ++ join "/" l

def Location.name (l : Location) : Text :=
  l.getLast?.getD []

/-- A location with one more name behind it; two dots take the last name away. -/
def Location.enter (l : Location) (name : Text) : Location :=
  if name = ".." then l.dropLast else l ++ [name]

/-- Where a path starts. A path with two slashes in front keeps them. -/
inductive Anchor where
  | here
  | root
  | doubleRoot
deriving DecidableEq, Repr

structure Path where
  anchor : Anchor
  names : List Text
deriving DecidableEq

namespace Path

def ofText (t : Text) : Path where
  anchor :=
    match (t.takeWhile (· == '/')).length with
    | 0 => .here
    | 2 => .doubleRoot
    | _ => .root
  names := (split '/' t).filter fun name => !(name.isEmpty || name == ['.'])

def render (p : Path) : Text :=
  match p.anchor, p.names with
  | .here, [] => "."
  | .here, names => join "/" names
  | .root, names => "/" ++ join "/" names
  | .doubleRoot, names => "//" ++ join "/" names

/-- The last name of a path; a path without names has the empty one. -/
def name (p : Path) : Text :=
  p.names.getLast?.getD []

def parent (p : Path) : Path :=
  { p with names := p.names.dropLast }

/-- The second path seen from the first. -/
def append (p q : Path) : Path :=
  match q.anchor with
  | .here => { p with names := p.names ++ q.names }
  | _ => q

/-- A name without what stands from its last dot on, if something stands before the dot and behind
it. -/
def stem (name : Text) : Text :=
  let reversed := name.reverse
  let ending := reversed.takeWhile (· != '.')
  match reversed.dropWhile (· != '.') with
  | '.' :: front => if front.isEmpty || ending.isEmpty then name else front.reverse
  | _ => name

/-- The path in which the last name ends with `ending` in place of its own ending, unless there is no
last name. -/
def withEnding? (p : Path) (ending : Text) : Option Path :=
  match p.names.getLast? with
  | none => none
  | some name => some { p with names := p.names.dropLast ++ [stem name ++ ending] }

/-- Whether the path holds a character that no file name can have. -/
def hasNul (p : Path) : Bool :=
  p.names.any (·.contains '\x00')

/-- The location that a path names, seen from a directory. -/
def locate (p : Path) (directory : Location) : Location :=
  p.names.foldl Location.enter (match p.anchor with
    | .here => directory
    | _ => [])

end Path

end Stylesheet
