import Stylesheet.Proofs.ScopeMarks

/-!
# Commas at the top of a selector list

A selector list is cut at those commas that a scan of the list, character by character, meets outside
strings, comments and brackets.

* `Scan`: the state of such a scan, and `scan`, its run over a text;
* `scan_isTop_iff`: a scan ends outside all of them exactly if strings and comments are closed in the
  lexemes of the text and brackets are balanced;
* `splitSelectors_append_comma`: a list with a comma there is cut into the selectors of both sides;
* `splitSelectors_cases`: a list has one selector, or such a comma behind the first one;
* `splitSelectors_cuts`: the selectors joined with commas are the list, each of them is cut no further,
  and all but the last end where the scan is outside strings, comments and brackets.
-/

namespace Stylesheet.Css

open Text

/-! ## Scanning a list -/

/-- Where a scan stands. -/
inductive Mode where
  | outside
  /-- Outside, behind a slash that a star would turn into the opening of a comment. -/
  | slash
  | quoted (mark : Char)
  /-- In a string, behind a backslash. -/
  | escaped (mark : Char)
  | comment
  /-- In a comment, behind a star that a slash would turn into its end. -/
  | star
deriving DecidableEq

/-- Whether a scan is in neither a string nor a comment. -/
def Mode.isOutside : Mode → Bool
  | outside | slash => true
  | _ => false

/-- A scan of a selector list: where it stands, and how many brackets are open there. -/
structure Scan where
  mode : Mode
  depth : Nat
deriving DecidableEq

namespace Scan

/-- A scan that meets a character outside strings and comments. -/
def meet (depth : Nat) (c : Char) : Scan :=
  if isQuoteMark c then ⟨.quoted c, depth⟩
  else if c = '/' then ⟨.slash, depth⟩
  else if c = '(' ∨ c = '[' then ⟨.outside, depth + 1⟩
  else if c = ')' ∨ c = ']' then ⟨.outside, depth - 1⟩
  else ⟨.outside, depth⟩

def step (s : Scan) (c : Char) : Scan :=
  match s.mode with
  | .outside => meet s.depth c
  | .slash => if c = '*' then ⟨.comment, s.depth⟩ else meet s.depth c
  | .quoted mark =>
    if c = '\\' then ⟨.escaped mark, s.depth⟩
    else if c = mark then ⟨.outside, s.depth⟩
    else s
  | .escaped mark => ⟨.quoted mark, s.depth⟩
  | .comment => if c = '*' then ⟨.star, s.depth⟩ else s
  | .star =>
    if c = '/' then ⟨.outside, s.depth⟩
    else if c = '*' then s
    else ⟨.comment, s.depth⟩

def run (s : Scan) (t : Text) : Scan :=
  t.foldl step s

/-- The scan is outside strings, comments and brackets. -/
def IsTop (s : Scan) : Prop :=
  s.mode.isOutside = true ∧ s.depth = 0

instance (s : Scan) : Decidable s.IsTop :=
  inferInstanceAs (Decidable (_ ∧ _))

@[simp] theorem run_nil (s : Scan) : s.run [] = s := rfl

@[simp] theorem run_cons (s : Scan) (c : Char) (t : Text) : s.run (c :: t) = (s.step c).run t := rfl

theorem run_append (s : Scan) (t u : Text) : s.run (t ++ u) = (s.run t).run u :=
  List.foldl_append

/-- What a slash means is settled by the character behind it. -/
theorem run_slash {c : Char} (other : c ≠ '*') (t : Text) (depth : Nat) :
    run ⟨.slash, depth⟩ (c :: t) = run ⟨.outside, depth⟩ (c :: t) := by
  simp [step, other]

/-- What a star in a comment means is settled by the character behind it. -/
theorem run_star {c : Char} (other : c ≠ '/') (t : Text) (depth : Nat) :
    run ⟨.star, depth⟩ (c :: t) = run ⟨.comment, depth⟩ (c :: t) := by
  by_cases star : c = '*'
  · simp [step, star]
  · simp [step, other, star]

/-- How a scan comes to the end of a string or comment that it was in: it is outside if that is closed,
and otherwise still inside, with nothing left to scan. -/
inductive Leaves (depth : Nat) : (closed : Bool) → (rest : Text) → Scan → Prop
  | closed {rest : Text} : Leaves depth true rest ⟨.outside, depth⟩
  | unclosed {mode : Mode} (inside : mode.isOutside = false) : Leaves depth false [] ⟨mode, depth⟩

theorem leaves_comment (t : Text) (depth : Nat) :
    Leaves depth (closesComment (spanComment t).1) (spanComment t).2
      (run ⟨.comment, depth⟩ (spanComment t).1) := by
  fun_induction spanComment t with
  | case1 => exact .unclosed rfl
  | case2 t => exact .closed
  | case3 c t early body rest cut ih =>
    rw [cut] at ih
    have whole := spanComment_append t
    rw [cut] at whole
    have go_on : ∀ u, c = '*' → body = '/' :: u → False := by
      rintro u star rfl
      exact early (u ++ rest) star whole.symm
    have closes : closesComment (c :: body) = closesComment body :=
      closesComment.eq_3 c body go_on
    simp only [closes, run_cons]
    by_cases star : c = '*'
    · subst star
      have entered : step ⟨.comment, depth⟩ '*' = ⟨.star, depth⟩ := rfl
      rw [entered]
      cases body with
      | nil =>
        cases ih with
        | unclosed inside => exact .unclosed rfl
      | cons d body =>
        rw [run_star (fun slash => go_on body rfl (by rw [slash]))]
        exact ih
    · have stays : step ⟨.comment, depth⟩ c = ⟨.comment, depth⟩ := by simp [step, star]
      rw [stays]
      exact ih

theorem leaves_quoted {mark : Char} (quote : isQuoteMark mark = true) (t : Text) (depth : Nat) :
    Leaves depth (closesString mark (spanQuoted mark t).1) (spanQuoted mark t).2
      (run ⟨.quoted mark, depth⟩ (spanQuoted mark t).1) := by
  have plain : mark ≠ '\\' := ne_of_isQuoteMark quote rfl
  have leaves : step ⟨.quoted mark, depth⟩ mark = ⟨.outside, depth⟩ := by simp [step, plain]
  have stays {c : Char} (no_escape : c ≠ '\\') (no_mark : c ≠ mark) :
      step ⟨.quoted mark, depth⟩ c = ⟨.quoted mark, depth⟩ := by
    simp [step, no_escape, no_mark]
  fun_induction spanQuoted mark t with
  | case1 => exact .unclosed rfl
  | case2 c =>
    rw [run_cons, run_nil]
    by_cases same : c = mark
    · rw [same, leaves]
      simp only [closesString, beq_self_eq_true]
      exact .closed
    · have open_ : closesString mark [c] = false := by simpa [closesString] using same
      rw [open_]
      by_cases escape : c = '\\'
      · rw [escape]
        exact .unclosed rfl
      · rw [stays escape same]
        exact .unclosed rfl
  | case3 d t body rest cut ih =>
    rw [cut] at ih
    exact ih
  | case4 d t no_escape =>
    rw [run_cons, run_nil, leaves]
    simp only [closesString, beq_self_eq_true]
    exact .closed
  | case5 c d t no_escape no_mark body rest cut ih =>
    rw [cut] at ih
    have closes : closesString mark (c :: body) = closesString mark body := by
      cases body <;> simp [closesString, no_escape, no_mark]
    simp only [closes, run_cons, stays no_escape no_mark]
    exact ih

/-- A character that is neither a quote nor a slash can only open or close a bracket. -/
theorem meet_of_isPlain {c : Char} (plain : isPlain c = true) (depth : Nat) :
    meet depth c = ⟨.outside, Lexeme.depth depth (.char c)⟩ := by
  simp only [isPlain, Bool.and_eq_true, bne_iff_ne, Bool.not_eq_true'] at plain
  rw [meet, if_neg (by simp [plain.2]), if_neg plain.1]
  unfold Lexeme.depth
  grind

/-- A scan sees what some lexemes say: how many brackets are open behind them, and whether all strings
and comments are closed. -/
def Sees (depth : Nat) (ls : List Lexeme) (s : Scan) : Prop :=
  s.depth = ls.foldl Lexeme.depth depth ∧ s.mode.isOutside = ls.all Lexeme.isComplete

/-- A string or comment in front of a text, from the end of which the scan goes on. -/
theorem Leaves.sees {l : Lexeme} {rest : Text} {depth : Nat} {s : Scan}
    (h : Leaves depth l.isComplete rest s) (level : l.depth depth = depth)
    (later : Sees depth (lex rest) (run ⟨.outside, depth⟩ rest)) :
    Sees depth (l :: lex rest) (run s rest) := by
  generalize closed : l.isComplete = complete at h
  cases h with
  | closed =>
    refine ⟨?_, ?_⟩
    · rw [List.foldl_cons, level]
      exact later.1
    · rw [List.all_cons, closed, Bool.true_and]
      exact later.2
  | unclosed inside =>
    refine ⟨?_, ?_⟩
    · simp [lex, level]
    · rw [List.all_cons, closed, run_nil, inside, Bool.false_and]

theorem sees_lex (t : Text) (depth : Nat) :
    Sees depth (lex t) (run ⟨.outside, depth⟩ t) := by
  fun_induction lex t generalizing depth with
  | case1 => exact ⟨rfl, rfl⟩
  | case2 t ih =>
    have opened : run ⟨.outside, depth⟩ ('/' :: '*' :: t) = run ⟨.comment, depth⟩ t := rfl
    have cut : run ⟨.comment, depth⟩ t =
        run (run ⟨.comment, depth⟩ (spanComment t).1) (spanComment t).2 := by
      rw [← run_append, spanComment_append]
    rw [opened, cut]
    exact (leaves_comment t depth).sees rfl (ih depth)
  | case3 c t no_comment quote ih =>
    have opened : step ⟨.outside, depth⟩ c = ⟨.quoted c, depth⟩ := by simp [step, meet, quote]
    have cut : run ⟨.quoted c, depth⟩ t =
        run (run ⟨.quoted c, depth⟩ (spanQuoted c t).1) (spanQuoted c t).2 := by
      rw [← run_append, spanQuoted_append]
    have closed : (Lexeme.quoted (c :: (spanQuoted c t).1)).isComplete =
        closesString c (spanQuoted c t).1 := by
      rw [Lexeme.isComplete, quote, Bool.true_and]
    have leaves := leaves_quoted quote t depth
    rw [← closed] at leaves
    rw [run_cons, opened, cut]
    exact leaves.sees rfl (ih depth)
  | case4 c t no_comment quote ih =>
    have quote : isQuoteMark c = false := by simpa using quote
    have met : step ⟨.outside, depth⟩ c = meet depth c := rfl
    rw [run_cons, met]
    by_cases slash : c = '/'
    · subst slash
      have waits : meet depth '/' = ⟨.slash, depth⟩ := rfl
      rw [waits]
      cases t with
      | nil => simp [Sees, lex, Lexeme.depth, Lexeme.isComplete, Mode.isOutside]
      | cons d t =>
        rw [run_slash fun star => no_comment t rfl (by rw [star])]
        exact ih depth
    · rw [meet_of_isPlain (by simp [isPlain, slash, quote])]
      exact ih _

end Scan

def scan (t : Text) : Scan :=
  Scan.run ⟨.outside, 0⟩ t

theorem scan_isTop_iff {t : Text} :
    (scan t).IsTop ↔ (lex t).all Lexeme.isComplete = true ∧ Balanced (lex t) := by
  obtain ⟨depth, outside⟩ := Scan.sees_lex t 0
  rw [Scan.IsTop, Balanced, scan, outside, depth]

/-! ## Lists with a comma between them -/

theorem splitLexemes_append_comma {ls : List Lexeme} {depth : Nat}
    (balanced : ls.foldl Lexeme.depth depth = 0) (rest : List Lexeme) :
    splitLexemes depth (ls ++ .char ',' :: rest) = splitLexemes depth ls ++ splitLexemes 0 rest := by
  induction ls generalizing depth with
  | nil =>
    obtain rfl : depth = 0 := balanced
    rfl
  | cons l ls ih =>
    rw [List.cons_append, splitLexemes, splitLexemes]
    split
    · rename_i cuts
      obtain ⟨rfl, rfl⟩ := cuts
      have later : splitLexemes 0 (ls ++ .char ',' :: rest) = _ := ih balanced
      rw [later]
      rfl
    · rw [ih balanced]
      obtain ⟨first, others, pieces⟩ :=
        List.exists_cons_of_ne_nil (splitLexemes_ne_nil (l.depth depth) ls)
      rw [pieces]
      rfl

theorem lex_comma (t : Text) : lex (',' :: t) = .char ',' :: lex t :=
  lex_char rfl (by simp)

theorem splitSelectors_append_comma {a : Text} (top : (scan a).IsTop) (b : Text) :
    splitSelectors (a ++ ',' :: b) = splitSelectors a ++ splitSelectors b := by
  obtain ⟨complete, balanced⟩ := scan_isTop_iff.1 top
  rw [splitSelectors, lex_append complete (by simp), lex_comma]
  exact splitLexemes_append_comma balanced (lex b)

/-! ## The selectors of a list -/

theorem lex_quoted {mark : Char} (quote : isQuoteMark mark = true) {body : Text}
    (closes : closesString mark body = true) (rest : Text) :
    lex (mark :: body ++ rest) = .quoted (mark :: body) :: lex rest := by
  rw [List.cons_append, lex_quote quote, spanQuoted_of_closes quote closes]

/-- A string or comment that is left open has nothing behind it. -/
theorem Scan.Leaves.isClosed {closed : Bool} {rest : Text} {depth : Nat} {s : Scan}
    (h : Leaves depth closed rest s) (more : lex rest ≠ []) : closed = true := by
  cases h with
  | closed => rfl
  | unclosed => exact absurd (by rw [lex]) more

/-- Lexemes in front of a comma are those of their text by itself, and none of them is left open. -/
theorem lex_before_comma {t : Text} {before after : List Lexeme}
    (h : lex t = before ++ .char ',' :: after) :
    lex (spell before) = before ∧ before.all Lexeme.isComplete = true := by
  fun_induction lex t generalizing before with
  | case1 => simp at h
  | case2 t ih =>
    cases before with
    | nil => cases h
    | cons l before =>
      obtain ⟨rfl, later⟩ := List.cons.inj h
      obtain ⟨own, complete⟩ := ih later
      have closes := (Scan.leaves_comment t 0).isClosed (by simp [later])
      refine ⟨?_, by simp [Lexeme.isComplete, closes, complete]⟩
      rw [spell_cons, Lexeme.text, lex_comment closes, own]
  | case3 c t no_comment quote ih =>
    cases before with
    | nil => cases h
    | cons l before =>
      obtain ⟨rfl, later⟩ := List.cons.inj h
      obtain ⟨own, complete⟩ := ih later
      have closes := (Scan.leaves_quoted quote t 0).isClosed (by simp [later])
      refine ⟨?_, by simp [Lexeme.isComplete, quote, closes, complete]⟩
      rw [spell_cons, Lexeme.text, lex_quoted quote closes, own]
  | case4 c t no_comment quote ih =>
    have quote : isQuoteMark c = false := by simpa using quote
    cases before with
    | nil => exact ⟨by rw [spell_nil, lex], rfl⟩
    | cons l before =>
      obtain ⟨rfl, later⟩ := List.cons.inj h
      obtain ⟨own, complete⟩ := ih later
      have whole : t = spell before ++ ',' :: spell after := by
        rw [← spell_lex t, later]
        simp [spell, Lexeme.text]
      have apart : c = '/' → (spell before).head? ≠ some '*' := by
        intro slash star
        obtain ⟨u, starred⟩ := List.head?_eq_some_iff.1 star
        rw [starred] at whole
        exact no_comment _ slash whole
      refine ⟨?_, by rw [List.all_cons, complete]; rfl⟩
      rw [spell_cons, Lexeme.text, List.singleton_append, lex_char quote apart, own]

/-- Lexemes of which every comma stands in brackets are cut nowhere. The induction is on what is still to
be cut, behind `front`. -/
theorem splitLexemes_of_unbroken (front : List Lexeme) {ls : List Lexeme} (unbroken : Unbroken (front ++ ls)) :
    splitLexemes (front.foldl Lexeme.depth 0) ls = [spell ls] := by
  induction ls generalizing front with
  | nil => rfl
  | cons l ls ih =>
    have inside : ¬ (l = .char ',' ∧ front.foldl Lexeme.depth 0 = 0) := by
      rintro ⟨rfl, balanced⟩
      exact unbroken front ls rfl balanced
    have later := ih (front ++ [l]) (by simpa using unbroken)
    rw [List.foldl_concat] at later
    rw [splitLexemes, if_neg inside, later]
    rfl

/-- A list has one selector, or it goes on behind a comma at the top, in front of which there is one. -/
theorem splitSelectors_cases (t : Text) :
    splitSelectors t = [t] ∨
      ∃ a b, t = a ++ ',' :: b ∧ (scan a).IsTop ∧ splitSelectors a = [a] ∧
        splitSelectors t = a :: splitSelectors b := by
  obtain ⟨cells, cut, texts⟩ := exists_cutAtCommas t
  generalize read : lex t = ls at cut
  cases cut with
  | last unbroken =>
    left
    rw [← texts, ← read]
    simp
  | @comma cell rest cells unbroken balanced later =>
    right
    obtain ⟨own, complete⟩ := lex_before_comma read
    have whole : t = spell cell ++ ',' :: spell rest := by
      rw [← spell_lex t, read]
      simp [spell, Lexeme.text]
    have top : (scan (spell cell)).IsTop := by
      rw [scan_isTop_iff, own]
      exact ⟨complete, balanced⟩
    have single : splitSelectors (spell cell) = [spell cell] := by
      rw [splitSelectors, own]
      exact splitLexemes_of_unbroken [] unbroken
    refine ⟨spell cell, spell rest, whole, top, single, ?_⟩
    rw [whole, splitSelectors_append_comma top, single]
    rfl

/-- What holds behind the first comma at the top holds of the whole list, so the length of the list
carries the induction. -/
theorem splitSelectors_parts (t : Text) :
    (∀ part ∈ splitSelectors t, splitSelectors part = [part]) ∧
      ∀ part ∈ (splitSelectors t).dropLast, (scan part).IsTop := by
  induction length : t.length using Nat.strong_induction_on generalizing t with
  | h n ih =>
    rcases splitSelectors_cases t with single | ⟨a, b, whole, top, single, cut⟩
    · rw [single]
      refine ⟨fun part listed => ?_, by simp⟩
      rw [List.mem_singleton.1 listed, single]
    · have shorter : b.length < n := by
        rw [← length, whole, List.length_append, List.length_cons]
        omega
      obtain ⟨uncut, tops⟩ := ih b.length shorter b rfl
      have more : splitSelectors b ≠ [] := splitLexemes_ne_nil 0 (lex b)
      rw [cut, List.dropLast_cons_of_ne_nil more]
      constructor
      · intro part listed
        rcases List.mem_cons.1 listed with rfl | later
        · exact single
        · exact uncut part later
      · intro part listed
        rcases List.mem_cons.1 listed with rfl | later
        · exact top
        · exact tops part later

/-- The selectors of a list, joined with commas, are the list. Each of them is cut no further, and all
but the last end where a scan is outside strings, comments and brackets. A list with a comma at such
a place is cut into the selectors in front of it and those behind it. -/
theorem splitSelectors_cuts (t a b : Text) :
    join [','] (splitSelectors t) = t ∧
    (∀ part ∈ splitSelectors t, splitSelectors part = [part]) ∧
    (∀ part ∈ (splitSelectors t).dropLast, (scan part).IsTop) ∧
    ((scan a).IsTop → splitSelectors (a ++ ',' :: b) = splitSelectors a ++ splitSelectors b) := by
  obtain ⟨uncut, tops⟩ := splitSelectors_parts t
  exact ⟨join_splitSelectors t, uncut, tops, fun top => splitSelectors_append_comma top b⟩

/-- A closing bracket too many, a comma in a string behind an escaped quote, one in a comment, and a
string that is left open. -/
theorem splitSelectors_tangled :
    (scan "a),b[c='\\',']/*,*/").IsTop ∧
    splitSelectors "a),b[c='\\',']/*,*/,:is(d,\"e," =
      ["a)", "b[c='\\',']/*,*/", ":is(d,\"e,"] := by
  have top : (scan "a),b[c='\\',']/*,*/").IsTop := by decide +kernel
  obtain ⟨-, -, -, cut⟩ := splitSelectors_cuts [] "a),b[c='\\',']/*,*/" ":is(d,\"e,"
  refine ⟨top, (cut top).trans ?_⟩
  decide +kernel

end Stylesheet.Css
