import Stylesheet.Text.Class
import Stylesheet.Token.Tables

/-!
# Colors in property lines

A property line may name colors. Names without a hyphen are replaced one after another in the order
of the color table, each wherever it stands as a whole word; then every word that has the form of a
palette color, such as `blue-500`, is looked up once.
-/

namespace Stylesheet.Color

open Text Token

/-- A line is made of words, which are longest runs of name characters, and of separators. -/
inductive Piece where
  | word (letters : Text)
  | separator (c : Char)
deriving DecidableEq

def Piece.text : Piece → Text
  | word letters => letters
  | separator c => [c]

def pieces : Text → List Piece
  | [] => []
  | c :: t =>
    if isNameChar c then
      match pieces t with
      | .word letters :: rest => .word (c :: letters) :: rest
      | rest => .word [c] :: rest
    else .separator c :: pieces t

/-- The hue and the digits of a word such as `blue-500`. -/
def shade? (w : Text) : Option (Text × Text) :=
  match w.takeWhile Char.isLower, w.dropWhile Char.isLower with
  | c :: hue, '-' :: d :: digits =>
    if (d :: digits).all isDigit then some (c :: hue, d :: digits) else none
  | _, _ => none

/-- Whether a word has the form of a palette color: a hue with a shade of two or three digits, or one
of the colors that have no shades. -/
def isPaletteName (w : Text) : Bool :=
  (plainColors.map Prod.fst).contains w ||
    match shade? w with
    | some (_, digits) => digits.length == 2 || digits.length == 3
    | none => false

/-- Whether a text does not go on with a name character. -/
def endsName : Text → Bool
  | [] => true
  | c :: _ => !isNameChar c

/-- Whether `name` stands at the front of a text as a whole word, `after` saying whether a name
character comes before. -/
def standsAt (name : Text) (after : Bool) (t : Text) : Bool :=
  !after && leads name t && endsName (t.drop name.length)

/-- Whether a name stands somewhere in a text as a whole word. -/
def occursWhole (name : Text) (after : Bool) : Text → Bool
  | [] => standsAt name after []
  | c :: t => standsAt name after (c :: t) || occursWhole name (isNameChar c) t

/-- A text with every whole occurrence of `name` replaced, from left to right. Of an occurrence just
replaced, `skip` characters are still to be passed over. The empty name stands between any two
characters that are not name characters. -/
def replaceWhole (name value : Text) : (after : Bool) → (skip : Nat) → Text → Text
  | after, 0, [] => if standsAt name after [] then value else []
  | _, _ + 1, [] => []
  | _, skip + 1, c :: t => replaceWhole name value (isNameChar c) skip t
  | after, 0, c :: t =>
    if standsAt name after (c :: t) then
      match name with
      | [] => value ++ c :: replaceWhole name value (isNameChar c) 0 t
      | _ :: rest => value ++ replaceWhole name value (isNameChar c) rest.length t
    else c :: replaceWhole name value (isNameChar c) 0 t

/-- A line with one color name replaced by its value, which must be a text if the name occurs. -/
def substitute (line name : Text) : Value → Except Misfit Text
  | .text value => .ok (replaceWhole name value false 0 line)
  | .parts values => if occursWhole name false line then .error ⟨values⟩ else .ok line

/-- A line with the names that have no hyphen replaced, in the order of the color table. -/
def substituteNames (colors : List (Text × Value)) (line : Text) : Except Misfit Text :=
  colors.foldlM (fun line (name, value) =>
    if name.contains '-' then .ok line else substitute line name value) line

/-- A piece with a palette color looked up; one that has no value is left as it is. -/
def substitutePiece (tables : Tables) : Piece → Except Misfit Text
  | .word w => if isPaletteName w then tables.textOf "colors" w else .ok w
  | .separator c => .ok [c]

def substitutePalette (tables : Tables) (line : Text) : Except Misfit Text := do
  return (← (pieces line).mapM (substitutePiece tables)).flatten

/-- A line with its colors in place of their names. -/
def resolve (tables : Tables) (line : Text) : Except Misfit Text := do
  substitutePalette tables (← substituteNames ((tables.get? "colors").getD ∅).entries line)

theorem flatten_pieces (t : Text) : ((pieces t).map Piece.text).flatten = t := by
  induction t with
  | nil => rfl
  | cons c t ih =>
    unfold pieces
    split
    · split
      · rename_i h; rw [h] at ih; simpa [Piece.text] using ih
      · simpa [Piece.text] using ih
    · simpa [Piece.text] using ih

end Stylesheet.Color
