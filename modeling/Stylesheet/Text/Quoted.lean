import Stylesheet.Text.Basic
import Stylesheet.Text.Printable

/-!
# Quoted texts

A text inside a larger value is shown between single quotes, or between double quotes if it holds a
single quote and no double quote. A backslash, the chosen quote, and characters that do not print are
escaped: tab, line feed and carriage return by letter, others by their code in two, four or eight
hexadecimal digits.

* `quote_front`: a quoted text opens with the quote it chose.
-/

namespace Stylesheet.Text

/-- The lowest `width` hexadecimal digits of a number. -/
def hex : (width : Nat) → Nat → Text
  | 0, _ => []
  | width + 1, n => hex width (n / 16) ++ [Nat.digitChar (n % 16)]

/-- The quote that a quoted form of the text uses. -/
def quoteMark (t : Text) : Char :=
  if t.contains '\'' && !t.contains '"' then '"' else '\''

def quoteChar (mark c : Char) : Text :=
  if c = '\\' || c = mark then ['\\', c]
  else if c = '\t' then "\\t"
  else if c = '\n' then "\\n"
  else if c = '\r' then "\\r"
  else if isPrintable c then [c]
  else if c.toNat < 0x100 then "\\x" ++ hex 2 c.toNat
  else if c.toNat < 0x10000 then "\\u" ++ hex 4 c.toNat
  else "\\U" ++ hex 8 c.toNat

def quote (t : Text) : Text :=
  let mark := quoteMark t
  mark :: t.flatMap (quoteChar mark) ++ [mark]

theorem quote_front (t : Text) : (quote t).head? = some (quoteMark t) := rfl

end Stylesheet.Text
