import Stylesheet.Text.Basic

/-!
# Import statements

A line such as `@import "buttons"` asks for the content of another file. Such a statement begins at
the left margin; the name stands between quotes, single or double, which need not be the same; only
spaces, tabs and carriage returns may follow. Line feeds may stand between the keyword and the name.

* `length_statement?`: a statement takes at least one character.
-/

namespace Stylesheet.Import

open Text

/-- Whether a character can stand at either end of the name in an import statement. -/
def isNameQuote (c : Char) : Bool :=
  c == '"' || c == '\''

/-- What remains at the end of a line: nothing, or a line feed and the text behind it. -/
def lineEnd? (t : Text) : Option Text :=
  match t.dropWhile (fun c => c == ' ' || c == '\t' || c == '\r') with
  | [] => some []
  | '\n' :: rest => some ('\n' :: rest)
  | _ => none

/-- The text up to the first quote that ends its line, and what remains of the line. -/
def closing? : Text → Option (Text × Text)
  | [] => none
  | c :: t =>
    match if isNameQuote c then lineEnd? t else none with
    | some rest => some ([], rest)
    | none =>
      if c = '\n' then none else (closing? t).map fun (name, rest) => (c :: name, rest)

/-- The name of the import statement at the front of a text, and the text behind the statement. -/
def statement? (t : Text) : Option (Text × Text) :=
  match dropLead? "@import" t with
  | none => none
  | some behind =>
    match behind.takeWhile isBlank, behind.dropWhile isBlank with
    | _ :: _, mark :: first :: rest =>
      if isNameQuote mark && first != '\n' then
        (closing? rest).map fun (name, rest) => (first :: name, rest)
      else none
    | _, _ => none

/-- A source is made of text and import statements. -/
inductive Segment where
  | text (content : Text)
  | statement (name : Text)
deriving DecidableEq

def consChar (c : Char) : List Segment → List Segment
  | .text content :: rest => .text (c :: content) :: rest
  | rest => .text [c] :: rest

theorem length_lineEnd? {t rest : Text} (h : lineEnd? t = some rest) :
    rest.length ≤ t.length := by
  have le := (List.dropWhile_sublist (l := t)
    (fun c => c == ' ' || c == '\t' || c == '\r')).length_le
  unfold lineEnd? at h
  split at h
  · cases h; simp
  · rename_i e; rw [e] at le; simp at h; rw [← h]; exact le
  · cases h

theorem length_closing? {t name rest : Text} (h : closing? t = some (name, rest)) :
    rest.length < t.length := by
  induction t generalizing name with
  | nil => simp [closing?] at h
  | cons c t ih =>
    unfold closing? at h
    split at h
    · rename_i r e
      simp only [Option.some.injEq, Prod.mk.injEq] at h
      split at e
      · have := length_lineEnd? e
        simp [← h.2]
        omega
      · cases e
    · split at h
      · cases h
      · simp only [Option.map_eq_some_iff, Prod.exists, Prod.mk.injEq] at h
        obtain ⟨n, r, hc, _, rfl⟩ := h
        have := ih hc
        simp only [List.length_cons]
        omega

theorem length_statement? {t name rest : Text} (h : statement? t = some (name, rest)) :
    rest.length < t.length := by
  unfold statement? at h
  split at h
  · cases h
  · rename_i behind hb
    have hd : behind.length ≤ t.length := by
      simp only [dropLead?] at hb
      split at hb
      · simp only [Option.some.injEq] at hb; rw [← hb]; simp
      · cases hb
    have hw := (List.dropWhile_sublist (l := behind) isBlank).length_le
    split at h
    · rename_i hs
      split at h
      · simp only [Option.map_eq_some_iff, Prod.exists, Prod.mk.injEq] at h
        obtain ⟨n, r, hc, _, rfl⟩ := h
        have hl := length_closing? hc
        rw [hs] at hw
        simp only [List.length_cons] at hw
        omega
      · cases h
    · cases h

/-- The segments of a source; `atStart` says whether a line begins here. -/
def segmentsFrom : (atStart : Bool) → Text → List Segment
  | _, [] => []
  | atStart, c :: t =>
    match _ : if atStart then statement? (c :: t) else none with
    | some (name, rest) => .statement name :: segmentsFrom false rest
    | none => consChar c (segmentsFrom (c == '\n') t)
termination_by _ t => t.length
decreasing_by
  · rename_i h
    split at h
    · exact length_statement? h
    · cases h
  · simp

/-- The text and the import statements of a source, in order. -/
def segments (source : Text) : List Segment :=
  segmentsFrom true source

def names (source : Text) : List Text :=
  (segments source).filterMap fun
    | .statement name => some name
    | .text _ => none

def isStatement (line : Text) : Bool :=
  (statement? line).isSome

end Stylesheet.Import
