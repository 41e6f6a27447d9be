import Stylesheet.Decimal.Read
import Stylesheet.Text.Quoted
import Stylesheet.Yaml.Token

/-!
# Dates and times

A date is written as year, month and day. A time of day may follow, and behind it the distance from
universal time.
-/

namespace Stylesheet.Yaml

open Text

structure Date where
  year : Nat
  month : Nat
  day : Nat
deriving DecidableEq

structure Clock where
  hour : Nat
  minute : Nat
  second : Nat
  microsecond : Nat
  /-- Minutes ahead of universal time, if it is known. -/
  ahead : Option Int
deriving DecidableEq

structure Time where
  date : Date
  clock : Option Clock
deriving DecidableEq

namespace Date

def isLeap (year : Nat) : Bool :=
  year % 4 == 0 && (year % 100 != 0 || year % 400 == 0)

def daysIn (year month : Nat) : Nat :=
  match month with
  | 2 => if isLeap year then 29 else 28
  | 4 | 6 | 9 | 11 => 30
  | _ => 31

/-- Whether the day exists, in a year of four digits other than zero. -/
def isValid (d : Date) : Bool :=
  1 ≤ d.year && d.year ≤ 9999 && 1 ≤ d.month && d.month ≤ 12 && 1 ≤ d.day &&
    d.day ≤ daysIn d.year d.month

/-- The number of days from the beginning of the calendar. -/
def toDays (d : Date) : Nat :=
  let before := d.year - 1
  before * 365 + before / 4 - before / 100 + before / 400 +
    (List.range' 1 (d.month - 1)).foldl (fun days month => days + daysIn d.year month) 0 + d.day

end Date

/-- A number with zeros in front to fill a width. -/
def padded (width n : Nat) : Text :=
  let digits := ofNat n
  List.replicate (width - digits.length) '0' ++ digits

namespace Clock

/-- Whether the time of day exists, less than a day away from universal time. -/
def isValid (c : Clock) : Bool :=
  c.hour < 24 && c.minute < 60 && c.second < 60 && c.ahead.all fun n => -1440 < n && n < 1440

/-- The distance from universal time, as hours and minutes. -/
def aheadText (n : Int) : Text :=
  (if n < 0 then ['-'] else ['+']) ++ padded 2 (n.natAbs / 60) ++ ":" ++ padded 2 (n.natAbs % 60)

def render (c : Clock) : Text :=
  padded 2 c.hour ++ ":" ++ padded 2 c.minute ++ ":" ++ padded 2 c.second ++
    (if c.microsecond = 0 then [] else '.' :: padded 6 c.microsecond) ++
    (c.ahead.map aheadText).getD []

/-- The distance from universal time inside a larger value: whole days down, and seconds up. -/
def zoneText (n : Int) : Text :=
  if n = 0 then "datetime.timezone.utc"
  else
    let days : Text := if n < 0 then "days=-1, " else []
    let seconds := (n % 1440).toNat * 60
    "datetime.timezone(datetime.timedelta(" ++ days ++ "seconds=" ++ ofNat seconds ++ "))"

end Clock

namespace Time

def render (t : Time) : Text :=
  padded 4 t.date.year ++ "-" ++ padded 2 t.date.month ++ "-" ++ padded 2 t.date.day ++
    match t.clock with
    | none => []
    | some c => " " ++ c.render

/-- The text of a date or time inside a larger value. Seconds and parts of them are left out at the end
if they are zero. -/
def quote (t : Time) : Text :=
  let date := [t.date.year, t.date.month, t.date.day]
  match t.clock with
  | none => "datetime.date(" ++ join ", " (date.map ofNat) ++ ")"
  | some c =>
    let rest :=
      if c.microsecond ≠ 0 then [c.second, c.microsecond]
      else if c.second ≠ 0 then [c.second] else []
    let zone :=
      match c.ahead with
      | none => []
      | some n => ("tzinfo=" : Text) ++ Clock.zoneText n
    "datetime.datetime(" ++
      join ", " ((date ++ [c.hour, c.minute] ++ rest).map ofNat ++ if zone.isEmpty then [] else [zone]) ++
      ")"

/-- The microseconds of universal time from the beginning of the calendar. -/
def instant (d : Date) (c : Clock) : Int :=
  let minutes : Int := (d.toDays * 24 + c.hour : Nat) * 60 + c.minute - c.ahead.getD 0
  (minutes * 60 + c.second) * 1000000 + c.microsecond

/-- Whether two times are the same. A time of which the distance from universal time is known is never
the same as one of which it is not. -/
def isSame (t u : Time) : Bool :=
  match t.clock, u.clock with
  | none, none => t.date == u.date
  | some c, some d =>
    c.ahead.isSome == d.ahead.isSome && instant t.date c == instant u.date d
  | _, _ => false

def oneOrTwo (t : Text) : Option (Nat × Text) :=
  match t with
  | b :: c :: rest =>
    if b.isDigit && c.isDigit then some (Decimal.ofDigits [b, c], rest)
    else if b.isDigit then some (Decimal.ofDigits [b], c :: rest)
    else none
  | [b] => if b.isDigit then some (Decimal.ofDigits [b], []) else none
  | [] => none

/-- Digits at the front of a text, as many as `count`. -/
def exactly (count : Nat) (t : Text) : Option (Nat × Text) :=
  let digits := t.take count
  if digits.length = count ∧ digits.all Char.isDigit then some (Decimal.ofDigits digits, t.drop count)
  else none

/-- The text behind a character that it must begin with. -/
def after (c : Char) (t : Text) : Option Text :=
  if t.head? = some c then some t.tail else none

/-- Whether a character separates the parts of a time. -/
def isGap (c : Char) : Bool :=
  c == ' ' || c == '\t'

/-- The distance from universal time in minutes, to the end of the text. -/
def zone? (t : Text) : Option Int := do
  match t with
  | ['Z'] => some 0
  | sign :: rest =>
    guard (sign = '-' ∨ sign = '+')
    let (hours, rest) ← oneOrTwo rest
    let minutes ←
      if rest.isEmpty then some 0
      else do
        let (minutes, rest) ← exactly 2 (← after ':' rest)
        guard rest.isEmpty
        some minutes
    let n : Int := (hours * 60 + minutes : Nat)
    some (if sign = '-' then -n else n)
  | [] => none

/-- The microseconds that digits behind a point stand for. -/
def microseconds (digits : Text) : Nat :=
  let six := digits.take 6
  Decimal.ofDigits (six ++ List.replicate (6 - six.length) '0')

def clock? (t : Text) : Option Clock := do
  let (hour, t) ← oneOrTwo t
  let (minute, t) ← exactly 2 (← after ':' t)
  let (second, t) ← exactly 2 (← after ':' t)
  let (microsecond, t) :=
    match t with
    | '.' :: t => (microseconds (t.takeWhile Char.isDigit), t.dropWhile Char.isDigit)
    | t => (0, t)
  let ahead ← if t.isEmpty then some none else (zone? (t.dropWhile isGap)).map some
  return { hour, minute, second, microsecond, ahead }

/-- A date or time as it is written, whether it exists or not. -/
def ofText? (t : Text) : Option Time := do
  let (year, t) ← exactly 4 t
  let (month, t) ← oneOrTwo (← after '-' t)
  let (day, t) ← oneOrTwo (← after '-' t)
  let date : Date := { year, month, day }
  match t with
  | [] => return { date, clock := none }
  | c :: rest =>
    if c = 'T' ∨ c = 't' then return { date, clock := some (← clock? rest) }
    else if isGap c then return { date, clock := some (← clock? (rest.dropWhile isGap)) }
    else none

/-- Whether a text has the form of a time. A date alone has ten characters. -/
def isForm (t : Text) : Bool :=
  match ofText? t with
  | none => false
  | some { clock := none, .. } => t.length == 10
  | some _ => true

def isValid (t : Time) : Bool :=
  t.date.isValid && t.clock.all Clock.isValid

/-- The time that a text writes; a line feed behind it does not count. -/
def read (t : Text) : Except Fault Time :=
  let t := if t.getLast? = some '\n' then t.dropLast else t
  match ofText? t with
  | none => .error .notTime
  | some time => if time.isValid then .ok time else .error .noSuchValue

end Time

end Stylesheet.Yaml
