import Stylesheet.Text.Class

/-!
# Texts

A text is a list of characters. This module holds the operations that every reader and printer of
the library uses: trimming, splitting at a character, searching, and folding letters to lower case.

* `trimStart_append_blank`: what trimming at the front removes is blank;
* `join_split`: splitting at a character and joining with it gives the text back.
-/

namespace Stylesheet

/-- A text, character by character. -/
abbrev Text := List Char

instance : Coe String Text := ⟨String.toList⟩

namespace Text

/-- A text without the characters of a class at its end. -/
def dropEndWhile (p : Char → Bool) : Text → Text
  | [] => []
  | c :: t =>
    match dropEndWhile p t with
    | [] => if p c then [] else [c]
    | d :: r => c :: d :: r

def trimStart (t : Text) : Text :=
  t.dropWhile isBlank

def trimEnd (t : Text) : Text :=
  dropEndWhile isBlank t

def trim (t : Text) : Text :=
  trimEnd (trimStart t)

/-- A numeral without the characters that may stand around it. -/
def trimNumeral (t : Text) : Text :=
  dropEndWhile isSpacing (t.dropWhile isSpacing)

def isBlankText (t : Text) : Bool :=
  t.all isBlank

/-- The pieces of a text between the occurrences of a separator; there is always at least one. -/
def split (separator : Char) : Text → List Text
  | [] => [[]]
  | c :: t =>
    if c = separator then [] :: split separator t
    else
      match split separator t with
      | [] => [[c]]
      | piece :: pieces => (c :: piece) :: pieces

/-- Texts one after another with a separator between neighbours. -/
def join (separator : Text) (pieces : List Text) : Text :=
  separator.intercalate pieces

/-- Whether the first text stands at the front of the second. -/
def leads (front t : Text) : Bool :=
  front.isPrefixOf t

/-- Whether the first text stands at the end of the second. -/
def ends (back t : Text) : Bool :=
  back.isSuffixOf t

/-- Whether the first text occurs somewhere in the second. -/
def occurs (part : Text) : Text → Bool
  | [] => part.isEmpty
  | c :: t => leads part (c :: t) || occurs part t

/-- What follows `front` in a text that starts with it. -/
def dropLead? (front t : Text) : Option Text :=
  if leads front t then some (t.drop front.length) else none

/-- The text up to the first occurrence of `mark`, and the text after it. -/
def cutAt? (mark : Text) : Text → Option (Text × Text)
  | [] => if mark.isEmpty then some ([], []) else none
  | c :: t =>
    if leads mark (c :: t) then some ([], (c :: t).drop mark.length)
    else (cutAt? mark t).map fun (before, after) => (c :: before, after)

/-- The lower-case form of a character, as far as it is an ASCII letter. Such characters are the ASCII
capitals and the Kelvin sign. `İ` lowers to an `i` with a combining dot, which no keyword holds, so it is
kept as it is, like every other character. -/
def foldChar (c : Char) : Char :=
  if c = '\u212a' then 'k' else c.toLower

/-- A text with its letters folded to lower case, as far as ASCII keywords can tell. -/
def fold (t : Text) : Text :=
  t.map foldChar

def ofNat (n : Nat) : Text :=
  Nat.toDigits 10 n

theorem trimStart_append_blank (t : Text) :
    ∃ b : Text, t = b ++ trimStart t ∧ b.all isBlank = true := by
  refine ⟨t.takeWhile isBlank, (List.takeWhile_append_dropWhile).symm, ?_⟩
  induction t with
  | nil => rfl
  | cons c t ih => by_cases h : isBlank c <;> simp_all [List.takeWhile]

theorem split_ne_nil (separator : Char) (t : Text) : split separator t ≠ [] := by
  cases t with
  | nil => simp [split]
  | cons c t => simp only [split]; split <;> (try split) <;> simp

theorem join_split (separator : Char) (t : Text) : join [separator] (split separator t) = t := by
  induction t with
  | nil => rfl
  | cons c t ih =>
    unfold split
    by_cases h : c = separator
    · obtain ⟨p, ps, hp⟩ := List.exists_cons_of_ne_nil (split_ne_nil separator t)
      simp only [h, if_true]
      rw [hp] at ih ⊢
      simpa [join, List.intercalate] using ih
    · simp only [h, if_false]
      cases hs : split separator t with
      | nil => exact absurd hs (split_ne_nil separator t)
      | cons p ps =>
        rw [hs] at ih
        cases ps with
        | nil => simpa [join, List.intercalate] using ih
        | cons q qs => simpa [join, List.intercalate] using ih

end Text

end Stylesheet
