import Stylesheet.Text.Class
import Stylesheet.Text.Quoted

/-!
# Switches

The words of a command line are switches, with values attached to them or not, and plain arguments. A
long switch can be cut short as long as no other begins like it.
-/

namespace Stylesheet.Command

open Text

inductive Switch where
  | help
  | output
  | isScoped
  | scopeId
  | tokens
  | watch
  | interval
  | lint
  | verbose
deriving DecidableEq, Repr

namespace Switch

def all : List Switch :=
  [help, output, isScoped, scopeId, tokens, watch, interval, lint, verbose]

def letter? : Switch → Option Char
  | help => some 'h'
  | output => some 'o'
  | watch => some 'w'
  | verbose => some 'v'
  | _ => none

def longName : Switch → Text
  | help => "--help"
  | output => "--output"
  | isScoped => "--scoped"
  | scopeId => "--scope-id"
  | tokens => "--tokens"
  | watch => "--watch"
  | interval => "--interval"
  | lint => "--lint"
  | verbose => "--verbose"

def takesValue : Switch → Bool
  | output | scopeId | tokens | interval => true
  | _ => false

/-- All names of a switch, as they appear in messages. -/
def title (s : Switch) : Text :=
  match s.letter? with
  | some c => '-' :: c :: '/' :: s.longName
  | none => s.longName

def ofLetter? (c : Char) : Option Switch :=
  all.find? (·.letter? == some c)

end Switch

inductive Misuse where
  | ambiguous (word : Text) (matching : List Switch)
  | missingValue (s : Switch)
  | unwantedValue (s : Switch) (value : Text)
  | notNumber (s : Switch) (value : Text)
  | missingInput
  | unrecognized (words : List Text)
deriving DecidableEq

def Misuse.message : Misuse → Text
  | ambiguous word matching =>
    "ambiguous option: " ++ word ++ " could match " ++ join ", " (matching.map Switch.longName)
  | missingValue s => "argument " ++ s.title ++ ": expected one argument"
  | unwantedValue s value => "argument " ++ s.title ++ ": ignored explicit argument " ++ quote value
  | notNumber s value => "argument " ++ s.title ++ ": invalid float value: " ++ quote value
  | missingInput => "the following arguments are required: input"
  | unrecognized words => "unrecognized arguments: " ++ join " " words

inductive Word where
  /-- A switch, with what stands behind it in the same word. -/
  | switch (s : Switch) (isLong : Bool) (attached : Option Text)
  /-- It looks like a switch and is none. -/
  | unknown (text : Text)
  | plain (text : Text)
  /-- Two hyphens, behind which all words are plain. -/
  | hyphens
deriving DecidableEq

/-- Whether a text is a negative number, of digits with at most one point among them. -/
def isNegativeNumber (t : Text) : Bool :=
  match t with
  | '-' :: t =>
    let t := if t.getLast? = some '\n' then t.dropLast else t
    match t.dropWhile isDigit with
    | [] => !t.isEmpty
    | '.' :: fraction => !fraction.isEmpty && fraction.all isDigit
    | _ => false
  | _ => false

/-- The word that begins with two hyphens and a long name, or the front of one. -/
def longWord (t : Text) : Except Misuse (Option Word) :=
  let (name, attached) : Text × Option Text :=
    match cutAt? "=" t with
    | some (name, value) => (name, some value)
    | none => (t, none)
  match Switch.all.find? (·.longName == name) with
  | some s => .ok (some (.switch s true attached))
  | none =>
    match Switch.all.filter fun s => leads name s.longName with
    | [] => .ok none
    | [s] => .ok (some (.switch s true attached))
    | matching => .error (.ambiguous t matching)

/-- The word that begins with a hyphen and the letter of a switch. An equals sign behind the letter does not
count. -/
def shortWord (c : Char) (rest : Text) : Option Word :=
  (Switch.ofLetter? c).map fun s => .switch s false <|
    match rest with
    | [] => none
    | '=' :: value => some value
    | value => some value

/-- The word that a text in front of two hyphens is. -/
def Word.ofText (t : Text) : Except Misuse Word :=
  let otherwise : Word :=
    if isNegativeNumber t || t.contains ' ' then .plain t else .unknown t
  match t with
  | '-' :: '-' :: _ => (longWord t).map (·.getD otherwise)
  | '-' :: c :: rest => .ok ((shortWord c rest).getD otherwise)
  | _ => .ok (.plain t)

def words : List Text → Except Misuse (List Word)
  | [] => .ok []
  | t :: rest =>
    if t = "--" then .ok (.hyphens :: rest.map .plain)
    else do return (← Word.ofText t) :: (← words rest)

end Stylesheet.Command
