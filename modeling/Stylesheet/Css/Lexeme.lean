import Stylesheet.Text.Basic

/-!
# Lexemes of CSS

A text of CSS, well formed or not, is cut into comments, quoted strings and single characters. Inside
a string a backslash takes the next character with it. A comment or string that is not closed runs to
the end of the text.

* `flatten_lex`: the lexemes, one after another, are the text.
-/

namespace Stylesheet.Css

/-- A piece of CSS as a scanner sees it. -/
inductive Lexeme where
  | comment (text : Text)
  | quoted (text : Text)
  | char (c : Char)
deriving DecidableEq

def Lexeme.text : Lexeme → Text
  | comment text => text
  | quoted text => text
  | char c => [c]

/-- Cuts a text behind the first `mark` that no backslash escapes. -/
def spanQuoted (mark : Char) : Text → Text × Text
  | [] => ([], [])
  | [c] => ([c], [])
  | c :: d :: t =>
    if c = '\\' then
      let (body, rest) := spanQuoted mark t
      (c :: d :: body, rest)
    else if c = mark then ([c], d :: t)
    else
      let (body, rest) := spanQuoted mark (d :: t)
      (c :: body, rest)

/-- Cuts a text behind the first `*/`. -/
def spanComment : Text → Text × Text
  | [] => ([], [])
  | '*' :: '/' :: t => (['*', '/'], t)
  | c :: t =>
    let (body, rest) := spanComment t
    (c :: body, rest)

theorem spanQuoted_append (mark : Char) (t : Text) :
    (spanQuoted mark t).1 ++ (spanQuoted mark t).2 = t := by
  fun_induction spanQuoted mark t <;> simp_all

theorem spanComment_append (t : Text) : (spanComment t).1 ++ (spanComment t).2 = t := by
  fun_induction spanComment t <;> simp_all

theorem length_spanQuoted (mark : Char) (t : Text) :
    (spanQuoted mark t).2.length ≤ t.length := by
  have h := congrArg List.length (spanQuoted_append mark t)
  simp only [List.length_append] at h
  omega

theorem length_spanComment (t : Text) : (spanComment t).2.length ≤ t.length := by
  have h := congrArg List.length (spanComment_append t)
  simp only [List.length_append] at h
  omega

def isQuoteMark (c : Char) : Bool :=
  c == '"' || c == '\''

def lex : Text → List Lexeme
  | [] => []
  | '/' :: '*' :: t => .comment ('/' :: '*' :: (spanComment t).1) :: lex (spanComment t).2
  | c :: t =>
    if isQuoteMark c then .quoted (c :: (spanQuoted c t).1) :: lex (spanQuoted c t).2
    else .char c :: lex t
termination_by t => t.length
decreasing_by
  · have := length_spanComment t
    simp only [List.length_cons]
    omega
  · have := length_spanQuoted c t
    simp only [List.length_cons]
    omega
  · simp

theorem flatten_lex (t : Text) : ((lex t).map Lexeme.text).flatten = t := by
  fun_induction lex t with
  | case1 => rfl
  | case2 t ih => simp [Lexeme.text, ih, spanComment_append]
  | case3 c t _ _ ih => simp [Lexeme.text, ih, spanQuoted_append]
  | case4 c t _ _ ih => simp [Lexeme.text, ih]

/-- The position behind the string that the character at `start` opens, if there is such a character. -/
def stringEnd? (t : Text) (start : Nat) : Option Nat :=
  match t.drop start with
  | [] => none
  | mark :: behind => some (start + 1 + (spanQuoted mark behind).1.length)

/-- As `stringEnd?`, for a start that counts from the end if it is negative. Scanning then passes
over the end to the front of the text. -/
def stringEndFrom? (t : Text) : Int → Option Int
  | .ofNat start => (stringEnd? t start).map Int.ofNat
  | .negSucc back =>
    if t.length ≤ back then none
    else
      match t.drop (t.length - 1 - back) with
      | [] => none
      | mark :: behind => some ((spanQuoted mark (behind ++ t)).1.length - back)

/-- The position behind the comment that opens at `start`: behind the first `*/` from two characters
on, or else the end of the text. A search that would begin before the text begins as many characters
before its end. -/
def commentEnd (t : Text) (start : Int) : Nat :=
  let first := if -2 ≤ start then (start + 2).toNat else (t.length + start + 2).toNat
  min first t.length + (spanComment (t.drop first)).1.length

end Stylesheet.Css
