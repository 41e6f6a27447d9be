import Stylesheet.Text.Basic

/-!
# Lines of a source

The forms that a line can have, seen by itself: a comment, a header that opens a root construct, a
header that opens a nested block, or a token with its value. Which of them counts depends on where the
line stands (`Stylesheet.Source.Reader`).
-/

namespace Stylesheet.Source

open Text

inductive Section where
  | tokens
  | components
  | styles
deriving DecidableEq, Repr

inductive Header where
  | tokens (category : Text)
  | component (name : Text)
  | style (selector : Text)
deriving DecidableEq

/-- The number of blank characters in front of the content of a line. -/
def indentation (line : Text) : Nat :=
  line.length - (trimStart line).length

def tokenCategories : List Text := ["colors", "sizes"]

/-- Names of the nested blocks that stand for states of an element. -/
def pseudoClasses : List Text := ["hover", "active", "focus", "disabled"]

/-- Names of the nested blocks that stand for widths of the screen. -/
def breakpointBlocks : List Text := ["@mobile", "@tablet", "@laptop", "@desktop"]

def nestedBlocks : List Text := pseudoClasses ++ breakpointBlocks

/-- What stands before a colon that ends the text. -/
def beforeColon? (t : Text) : Option Text :=
  if t.getLast? = some ':' then some t.dropLast else none

/-- The category of a line such as `colors:`. -/
def tokenHeader? (content : Text) : Option Text :=
  (beforeColon? content).filter tokenCategories.contains

/-- A non-empty name from the front of a text, and the rest. -/
def takeName? (t : Text) : Option (Text × Text) :=
  match t.takeWhile isNameChar with
  | [] => none
  | name => some (name, t.dropWhile isNameChar)

/-- The name in what follows the keyword of a component header. -/
def componentName? (t : Text) : Option Text :=
  if (t.takeWhile isBlank).isEmpty then none
  else
    match takeName? (t.dropWhile isBlank) with
    | some (name, [':']) => some name
    | _ => none

/-- The name of a line such as `component card:` or `define card:`. -/
def componentHeader? (content : Text) : Option Text :=
  match dropLead? "component" content with
  | some rest => componentName? rest
  | none => (dropLead? "define" content).bind componentName?

/-- Whether a character may stand between the brackets of a selector. -/
def isAttributeChar (c : Char) : Bool :=
  isNameChar c || c == '=' || c == '"' || c == '\''

/-- What may follow the name in a selector: nothing, or an attribute in brackets. -/
def isAttribute : Text → Bool
  | [] => true
  | '[' :: rest =>
    !(rest.takeWhile isAttributeChar).isEmpty && rest.dropWhile isAttributeChar == [']']
  | _ => false

/-- Whether a text is a selector: a name, perhaps with a `.` or `#` in front and an attribute behind. -/
def isSelector (t : Text) : Bool :=
  let body := match t with
    | '.' :: rest => rest
    | '#' :: rest => rest
    | rest => rest
  match takeName? body with
  | some (_, rest) => isAttribute rest
  | none => false

/-- The selector of a line such as `button:` or `.card:`. -/
def selectorHeader? (content : Text) : Option Text :=
  (beforeColon? content).filter isSelector

/-- The root construct that a line at the left margin opens. -/
def header? (content : Text) : Option Header :=
  match tokenHeader? content with
  | some category => some (.tokens category)
  | none =>
    match componentHeader? content with
    | some name => some (.component name)
    | none => (selectorHeader? content).map .style

/-- The name of the nested block that a line such as `hover:` opens. -/
def nestedHeader? (content : Text) : Option Text :=
  (beforeColon? content).filter nestedBlocks.contains

/-- The name and the value of a token line: a name, blanks, and the rest of the line. -/
def tokenValue? (content : Text) : Option (Text × Text) :=
  match takeName? content with
  | none => none
  | some (name, rest) =>
    let value := rest.dropWhile isBlank
    if (rest.takeWhile isBlank).isEmpty || value.isEmpty || value.contains '\n' then none
    else some (name, value)

/-- A text without a line feed at its end, if it has one. -/
def dropFinalNewline (t : Text) : Text :=
  if t.getLast? = some '\n' then t.dropLast else t

/-- A `#` starts a comment, except where it starts the header of an id selector at the left margin. -/
def isComment (content : Text) (indent : Int) : Bool :=
  leads "#" content && !(indent == 0 && (selectorHeader? (dropFinalNewline content)).isSome)

/-- The kind of construct that a comment announces, by the first of three words found in it. -/
def announced? (comment : Text) : Option Section :=
  let folded := fold comment
  if occurs "component" folded then some .components
  else if occurs "style" folded then some .styles
  else if occurs "token" folded then some .tokens
  else none

end Stylesheet.Source
