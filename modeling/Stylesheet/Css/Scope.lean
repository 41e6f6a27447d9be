import Stylesheet.Css.Selectors
import Stylesheet.Text.Basic

/-!
# Scoping CSS

Scoping narrows the selectors of a style sheet, so that it applies only inside the element that
carries a scope attribute. Rules in grouping at-rules are scoped like rules at the top; what is in
keyframes, in a font face or in the body of a rule is left alone. Any text is accepted.
-/

namespace Stylesheet.Css

open Text

/-- What an open block holds. -/
inductive BlockKind where
  | group
  | keyframes
  | declarations
deriving DecidableEq, Repr

def groupingRules : List Text := ["@media", "@supports", "@container", "@layer", "@document"]

/-- Whether a character stands for a letter between the hyphens of a vendor's name. Case does not
count, so the dotless i and the long s do too. -/
def isVendorLetter (c : Char) : Bool :=
  c.isLower || c == 'ı' || c == 'ſ'

/-- Whether a folded text starts with the word `keyframes`. -/
def startsKeyframes (t : Text) : Bool :=
  match dropLead? "keyframe" t with
  | some (c :: rest) =>
    (c == 's' || c == 'ſ') && !(rest.head?.any isWordChar)
  | _ => false

/-- Whether the folded name of an at-rule is that of keyframes, perhaps with a vendor's name. -/
def isKeyframes (name : Text) : Bool :=
  match dropLead? "@" name with
  | none => false
  | some rest =>
    startsKeyframes rest ||
      match rest with
      | '-' :: vendor =>
        match vendor.takeWhile isVendorLetter, vendor.dropWhile isVendorLetter with
        | _ :: _, '-' :: word => startsKeyframes word
        | _, _ => false
      | _ => false

/-- What the block of an at-rule holds, by the first word of its opening. -/
def atRuleKind (opening : Text) : BlockKind :=
  let name := fold (opening.takeWhile fun c => !isBlank c)
  if isKeyframes name then .keyframes
  else if groupingRules.any (leads · name) then .group
  else .declarations

/-- The opening of a block as it is written out, and what the block holds. -/
def openBlock (id : Text) (stack : List BlockKind) (opening : Text) : Text × BlockKind :=
  if leads "@" (trim opening) then (opening, atRuleKind (trim opening))
  else
    match stack with
    | [] => (scopeSelectors id opening, .declarations)
    | .group :: _ => (scopeSelectors id opening, .declarations)
    | _ => (opening, .declarations)

/-- The scoped text of lexemes, where `stack` has the open blocks, the innermost first, and `pending`
is the text since the last brace or semicolon. A comment is pending only behind other text. -/
def scopeLexemes (id : Text) : (stack : List BlockKind) → (pending : Text) → List Lexeme → Text
  | _, pending, [] => pending
  | stack, pending, .comment text :: rest =>
    if isBlankText pending then pending ++ text ++ scopeLexemes id stack [] rest
    else scopeLexemes id stack (pending ++ text) rest
  | stack, pending, .quoted text :: rest => scopeLexemes id stack (pending ++ text) rest
  | stack, pending, .char c :: rest =>
    if c = '\x7b' then
      let (opening, kind) := openBlock id stack pending
      opening ++ c :: scopeLexemes id (kind :: stack) [] rest
    else if c = '\x7d' then pending ++ c :: scopeLexemes id stack.tail [] rest
    else if c = ';' then pending ++ c :: scopeLexemes id stack [] rest
    else scopeLexemes id stack (pending ++ [c]) rest

/-- A text of CSS with the selectors of its rules scoped. -/
def scope (id css : Text) : Text :=
  scopeLexemes id [] [] (lex css)

end Stylesheet.Css
