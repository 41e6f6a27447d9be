import Stylesheet.Text.Basic
import Stylesheet.Yaml.Time

/-!
# Tags

The tag of a node says what kind of data it stands for. A plain scalar without a tag gets one by its
form: `yes` is a truth value, `0x1F` a number and `2020-01-01` a date.
-/

namespace Stylesheet.Yaml

open Text

inductive Tag where
  | null
  | bool
  | int
  | float
  | text
  | bytes
  | time
  | sequence
  | mapping
  /-- A sequence of pairs. -/
  | pairs
  /-- A mapping of which only the keys count. -/
  | set
  /-- The key under which other mappings are merged in. -/
  | merge
  /-- The key of the value that stands for a whole mapping. -/
  | default
  /-- A tag that no plain data have. -/
  | unknown
deriving DecidableEq, Repr

def tagFront : Text := "tag:yaml.org,2002:"

def Tag.ofName (name : Text) : Tag :=
  match (dropLead? tagFront name).map String.ofList with
  | some "null" => .null
  | some "bool" => .bool
  | some "int" => .int
  | some "float" => .float
  | some "str" => .text
  | some "binary" => .bytes
  | some "timestamp" => .time
  | some "seq" => .sequence
  | some "map" => .mapping
  | some "omap" => .pairs
  | some "pairs" => .pairs
  | some "set" => .set
  | some "merge" => .merge
  | some "value" => .default
  | _ => .unknown

def nullWords : List Text := ["", "~", "null", "Null", "NULL"]

def boolWords : List Text :=
  ["yes", "Yes", "YES", "no", "No", "NO", "true", "True", "TRUE", "false", "False", "FALSE",
    "on", "On", "ON", "off", "Off", "OFF"]

def floatWords : List Text :=
  [".inf", ".Inf", ".INF", "-.inf", "-.Inf", "-.INF", "+.inf", "+.Inf", "+.INF", ".nan", ".NaN", ".NAN"]

def dropSign : Text → Text
  | '-' :: t => t
  | '+' :: t => t
  | t => t

/-- Whether a character may stand among the digits of a number. -/
def isSpacedDigit (c : Char) : Bool :=
  c.isDigit || c == '_'

/-- Whether a text is a digit and digits with underscores among them. -/
def isSpacedNumeral (t : Text) : Bool :=
  t.head?.any Char.isDigit && t.all isSpacedDigit

/-- Whether a text is a digit, or two of which the first is at most five. -/
def isSixtieth : Text → Bool
  | [c] => c.isDigit
  | [b, c] => '0' ≤ b && b ≤ '5' && c.isDigit
  | _ => false

/-- Whether a text is a number, and one or more sixtieths behind colons. -/
def isSexagesimal (t : Text) : Bool :=
  match split ':' t with
  | first :: second :: rest => isSpacedNumeral first && (second :: rest).all isSixtieth
  | _ => false

/-- Whether a text is empty or an exponent, which has a sign. -/
def isExponent : Text → Bool
  | [] => true
  | e :: sign :: digits =>
    (e == 'e' || e == 'E') && (sign == '-' || sign == '+') && !digits.isEmpty && digits.all Char.isDigit
  | _ => false

/-- Whether a text is digits behind a point, and an exponent. -/
def isFraction (t : Text) : Bool :=
  isExponent (t.dropWhile isSpacedDigit)

/-- Whether a text has the form of a number with a point in it. -/
def isFloatForm (t : Text) : Bool :=
  floatWords.contains t ||
    match cutAt? "." t with
    | none => false
    | some ([], fraction) => fraction.head?.any Char.isDigit && isFraction fraction
    | some (whole, fraction) =>
      let whole := dropSign whole
      (isSpacedNumeral whole && isFraction fraction) ||
        (isSexagesimal whole && fraction.all isSpacedDigit)

/-- Whether a character is a hexadecimal digit or an underscore. -/
def isHexDigit (c : Char) : Bool :=
  isSpacedDigit c || ('a' ≤ c && c ≤ 'f') || ('A' ≤ c && c ≤ 'F')

/-- Whether a text has the form of an integer: binary, octal, hexadecimal, decimal or of base sixty. -/
def isIntForm (t : Text) : Bool :=
  match dropSign t with
  | ['0'] => true
  | '0' :: 'b' :: digits => !digits.isEmpty && digits.all fun c => c == '0' || c == '1' || c == '_'
  | '0' :: 'x' :: digits => !digits.isEmpty && digits.all isHexDigit
  | '0' :: digits => digits.all fun c => ('0' ≤ c && c ≤ '7') || c == '_'
  | digits => isSpacedNumeral digits || isSexagesimal digits

/-- A text without a line feed at its end, if there is something in front of it. -/
def dropFinalBreak (t : Text) : Text :=
  if 1 < t.length ∧ t.getLast? = some '\n' then t.dropLast else t

/-- The tag that a scalar has by its form, on which a line feed at the end has no bearing. -/
def Tag.ofForm (t : Text) : Tag :=
  let t := dropFinalBreak t
  if nullWords.contains t then .null
  else if boolWords.contains t then .bool
  else if isFloatForm t then .float
  else if isIntForm t then .int
  else if Time.isForm t then .time
  else if t = "<<" then .merge
  else if t = "=" then .default
  else .text

end Stylesheet.Yaml
