import Stylesheet.Text.Quoted

/-!
# Token values

The value of a design token is a text, or a list of texts such as a font size with its line height.
A place that shows a value writes a list in parentheses with its parts quoted; a place that works on
text refuses a list.
-/

namespace Stylesheet.Token

open Text

inductive Value where
  | text (value : Text)
  | parts (values : List Text)
deriving DecidableEq

/-- A list of parts stands where a text is needed. -/
structure Misfit where
  parts : List Text
deriving DecidableEq

namespace Value

/-- Whether a value says anything: the empty text and the empty list do not. -/
def isPresent : Value → Bool
  | text value => !value.isEmpty
  | parts values => !values.isEmpty

/-- A value as part of a larger text; a single part keeps a comma behind it. -/
def render : Value → Text
  | text value => value
  | parts [part] => "(" ++ quote part ++ ",)"
  | parts values => "(" ++ join ", " (values.map quote) ++ ")"

def asText : Value → Except Misfit Text
  | text value => .ok value
  | parts values => .error ⟨values⟩

end Value

end Stylesheet.Token
