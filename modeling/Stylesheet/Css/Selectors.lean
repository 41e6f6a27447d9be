import Stylesheet.Css.Lexeme

/-!
# Selector lists

A selector list is cut at its commas, except those inside brackets, strings and comments. Scoping a
list puts an attribute in front of every selector in it.
-/

namespace Stylesheet.Css

open Text

/-- The depth of brackets after a lexeme; a closing bracket without an opening one counts for nothing. -/
def Lexeme.depth (depth : Nat) : Lexeme → Nat
  | .char '(' => depth + 1
  | .char '[' => depth + 1
  | .char ')' => depth - 1
  | .char ']' => depth - 1
  | _ => depth

/-- A text in front of the first of some texts. -/
def prepend (t : Text) : List Text → List Text
  | [] => [t]
  | first :: rest => (t ++ first) :: rest

/-- The pieces of a list of lexemes between commas outside brackets. -/
def splitLexemes : (depth : Nat) → List Lexeme → List Text
  | _, [] => [[]]
  | depth, l :: rest =>
    if l = .char ',' ∧ depth = 0 then [] :: splitLexemes 0 rest
    else prepend l.text (splitLexemes (l.depth depth) rest)

/-- The selectors of a list, with the blanks around them. -/
def splitSelectors (t : Text) : List Text :=
  splitLexemes 0 (lex t)

def scopeAttribute (id : Text) : Text :=
  "[data-tom=\"" ++ id ++ "\"]"

/-- A selector with the attribute in front. A pseudo-class is joined to it, anything else stands
inside an element that has it. -/
def scopeSelector (mark selector : Text) : Text :=
  match selector with
  | [] => []
  | ':' :: _ => mark ++ selector
  | _ => mark ++ " " ++ selector

/-- A selector list with every selector scoped; the blanks around the list are kept. -/
def scopeSelectors (id list : Text) : Text :=
  let body := trim list
  if body.isEmpty then list
  else
    list.takeWhile isBlank ++
      join ", " ((splitSelectors body).map fun s => scopeSelector (scopeAttribute id) (trim s)) ++
      list.drop (trimEnd list).length

end Stylesheet.Css
