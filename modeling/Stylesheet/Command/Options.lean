import Stylesheet.Command.Switch
import Stylesheet.Decimal.Layout
import Stylesheet.Decimal.Read
import Stylesheet.Path

/-!
# Options

What the words of a command line ask for. The words are taken in order: the first plain one is the
input, and whatever cannot be used is gathered and complained about at the end.
-/

namespace Stylesheet.Command

open Text

/-- How long to wait between two looks at the files. -/
inductive Pause where
  | seconds (s : Float)
  /-- The switch for it has no value. -/
  | unstated

def Pause.render : Pause → Text
  | seconds s => Decimal.render s
  | unstated => "[]"

inductive PauseFault where
  | notNumber
  | tooLong
  | negative
  | unstated
deriving DecidableEq

def PauseFault.message : PauseFault → Text
  | notNumber => "the interval is no number"
  | tooLong => "the interval is too long"
  | negative => "the interval is negative"
  | unstated => "the interval has no value"

/-- What keeps the clock from making a pause. It counts nanoseconds in signed words of 64 bits. -/
def Pause.fault? : Pause → Option PauseFault
  | seconds s =>
    let nanoseconds := s * 1000000000
    if s.isNaN then some .notNumber
    else if nanoseconds < -9223372036854775808 || 9223372036854775808 ≤ nanoseconds then some .tooLong
    else if s < 0 then some .negative
    else none
  | unstated => some .unstated

structure Options where
  input : Path
  /-- The file to write; by default it is named after the input. -/
  output : Option Path
  isScoped : Bool
  scopeId : Option Text
  tokens : Option Path
  /-- Whether to compile again when files change. -/
  watches : Bool
  interval : Pause
  /-- Whether to check the source and not compile it. -/
  lints : Bool
  isVerbose : Bool

/-- Options of which the input may still be missing. -/
structure Draft where
  input : Option Text := none
  output : Option Path := none
  isScoped : Bool := false
  scopeId : Option Text := none
  tokens : Option Path := none
  watches : Bool := false
  interval : Pause := .seconds 0.5
  lints : Bool := false
  isVerbose : Bool := false
  /-- Words that could not be used. -/
  extra : List Text := []

inductive Refusal where
  | help
  | misuse (m : Misuse)
deriving DecidableEq

/-- The switches in one word. -/
structure Bundle where
  /-- Switches with their values, if they have any. -/
  complete : List (Switch × Option Text) := []
  /-- A switch at the end that nothing is attached to. -/
  last : Option Switch := none

namespace Bundle

def cons (s : Switch) (b : Bundle) : Bundle :=
  { b with complete := (s, none) :: b.complete }

/-- A switch with a value in the same word. Two hyphens stand for no value. -/
def ofValue (s : Switch) (value : Text) : Except Misuse Bundle :=
  if !s.takesValue then .error (.unwantedValue s value)
  else .ok { complete := [(s, if value = "--" then none else some value)] }

/-- The switches of a word that begins with a letter, and what is attached to it. A switch that takes
no value may be followed by another letter. -/
def ofLetters (s : Switch) : (attached : Text) → Except Misuse Bundle
  | [] => ofValue s []
  | c :: rest =>
    if s.takesValue then ofValue s (c :: rest)
    else
      match Switch.ofLetter? c with
      | none => .error (.unwantedValue s (c :: rest))
      | some next =>
        if rest.isEmpty then .ok { complete := [(s, none)], last := some next }
        else (ofLetters next rest).map (cons s)

def ofWord (s : Switch) (isLong : Bool) (attached : Option Text) : Except Misuse Bundle :=
  match attached with
  | none => .ok { last := some s }
  | some value => if isLong then ofValue s value else ofLetters s value

end Bundle

namespace Draft

/-- The pause that a value of the switch for it asks for. -/
def pause (value : Option Text) : Except Refusal Pause :=
  match value with
  | none => .ok .unstated
  | some text =>
    match Decimal.read? text with
    | some s => .ok (.seconds s)
    | none => .error (.misuse (.notNumber .interval text))

/-- The draft with what a switch asks for. Without a value it takes back what was asked for before. -/
def set (d : Draft) (s : Switch) (value : Option Text) : Except Refusal Draft :=
  match s with
  | .help => .error .help
  | .output => .ok { d with output := value.map .ofText }
  | .isScoped => .ok { d with isScoped := true }
  | .scopeId => .ok { d with scopeId := value }
  | .tokens => .ok { d with tokens := value.map .ofText }
  | .watch => .ok { d with watches := true }
  | .interval => do return { d with interval := ← pause value }
  | .lint => .ok { d with lints := true }
  | .verbose => .ok { d with isVerbose := true }

def leave (d : Draft) (word : Text) : Draft :=
  { d with extra := d.extra ++ [word] }

/-- The draft with a bundle whose last switch is complete. -/
def apply (d : Draft) (b : Bundle) (last : List (Switch × Option Text)) : Except Refusal Draft :=
  (b.complete ++ last).foldlM (fun d (s, value) => d.set s value) d

/-- Takes the words in order. Two hyphens next to the input belong to it. -/
def read (d : Draft) : List Word → Except Refusal Draft
  | [] => .ok d
  | .plain text :: .hyphens :: rest =>
    match d.input with
    | none => read { d with input := some text } rest
    | some _ => read ((d.leave text).leave "--") rest
  | .plain text :: rest =>
    match d.input with
    | none => read { d with input := some text } rest
    | some _ => read (d.leave text) rest
  | .hyphens :: .plain text :: rest =>
    match d.input with
    | none => read { d with input := some text } rest
    | some _ => read ((d.leave "--").leave text) rest
  | .hyphens :: rest => read (d.leave "--") rest
  | .unknown text :: rest => read (d.leave text) rest
  | .switch s isLong attached :: rest =>
    match Bundle.ofWord s isLong attached with
    | .error m => .error (.misuse m)
    | .ok b =>
      match b.last, rest with
      | none, rest => do read (← d.apply b []) rest
      | some last, .plain value :: rest =>
        if last.takesValue then do read (← d.apply b [(last, some value)]) rest
        else do read (← d.apply b [(last, none)]) (.plain value :: rest)
      | some last, rest =>
        if last.takesValue then .error (.misuse (.missingValue last))
        else do read (← d.apply b [(last, none)]) rest

def finish (d : Draft) : Except Refusal Options :=
  match d.input, d.extra with
  | none, _ => .error (.misuse .missingInput)
  | some _, word :: rest => .error (.misuse (.unrecognized (word :: rest)))
  | some input, [] => .ok {
      input := .ofText input
      output := d.output
      isScoped := d.isScoped
      scopeId := d.scopeId
      tokens := d.tokens
      watches := d.watches
      interval := d.interval
      lints := d.lints
      isVerbose := d.isVerbose }

end Draft

def Options.ofArguments (arguments : List Text) : Except Refusal Options := do
  let words ← (words arguments).mapError .misuse
  (← Draft.read {} words).finish

end Stylesheet.Command
