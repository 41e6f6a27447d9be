import Stylesheet.Css.Lexeme
import Stylesheet.Proofs.Trim

/-!
# Lexemes of texts put together

A string or a comment that is closed stays the same lexeme whatever stands behind it. A text in which
all of them are closed can therefore be read by itself:

* `lex_append`: the lexemes of two texts, one behind the other, are those of both, unless a slash and
  a star meet;
* `lex_comment`, `lex_plain`: the cases in which nothing needs to be known of what follows.
-/

namespace Stylesheet.Css

open Text

/-- Whether a text is what stands behind the opening mark of a string, up to the first mark that no
backslash escapes. -/
def closesString (mark : Char) : Text → Bool
  | [] => false
  | [c] => c == mark
  | c :: d :: t =>
    if c = '\\' then closesString mark t else c != mark && closesString mark (d :: t)

/-- Whether a text is what stands behind the opening of a comment, up to the first `*/`. -/
def closesComment : Text → Bool
  | [] => false
  | '*' :: '/' :: t => t.isEmpty
  | _ :: t => closesComment t

/-- Whether a lexeme is a character, or a string or comment that is closed. -/
def Lexeme.isComplete : Lexeme → Bool
  | .comment ('/' :: '*' :: body) => closesComment body
  | .quoted (mark :: body) => isQuoteMark mark && closesString mark body
  | .char _ => true
  | _ => false

/-- The characters of lexemes, one after another. -/
def spell (ls : List Lexeme) : Text :=
  (ls.map Lexeme.text).flatten

@[simp] theorem spell_nil : spell [] = [] := rfl

@[simp] theorem spell_cons (l : Lexeme) (ls : List Lexeme) :
    spell (l :: ls) = l.text ++ spell ls := rfl

@[simp] theorem spell_lex (t : Text) : spell (lex t) = t := flatten_lex t

theorem ne_of_isQuoteMark {mark c : Char} (quote : isQuoteMark mark = true)
    (other : isQuoteMark c = false) : mark ≠ c := by
  rintro rfl
  rw [quote] at other
  cases other

theorem spanQuoted_of_closes {mark : Char} (quote : isQuoteMark mark = true) {body : Text}
    (closes : closesString mark body = true) (rest : Text) :
    spanQuoted mark (body ++ rest) = (body, rest) := by
  have plain : mark ≠ '\\' := ne_of_isQuoteMark quote rfl
  fun_induction closesString mark body with
  | case1 => cases closes
  | case2 c =>
    have same : c = mark := by simpa using closes
    subst same
    cases rest with
    | nil => rfl
    | cons d t => simp [spanQuoted, plain]
  | case3 d t ih => simp [spanQuoted, ih closes]
  | case4 c d t escape ih =>
    simp only [Bool.and_eq_true, bne_iff_ne, ne_eq] at closes
    have read := ih closes.2
    rw [List.cons_append] at read
    simp [spanQuoted, escape, closes.1, read]

theorem spanComment_of_closes {body : Text} (closes : closesComment body = true) (rest : Text) :
    spanComment (body ++ rest) = (body, rest) := by
  fun_induction closesComment body with
  | case1 => cases closes
  | case2 t =>
    have last : t = [] := by simpa using closes
    subst last
    rfl
  | case3 c t early ih =>
    have go_on : ∀ u, c = '*' → t ++ rest = '/' :: u → False := by
      intro u star slash
      cases t with
      | nil => simp [closesComment] at closes
      | cons d t => exact early t star (by rw [(List.cons.inj slash).1])
    rw [List.cons_append, spanComment.eq_3 c (t ++ rest) go_on, ih closes]

theorem lex_comment {body : Text} (closes : closesComment body = true) (rest : Text) :
    lex ('/' :: '*' :: body ++ rest) = .comment ('/' :: '*' :: body) :: lex rest := by
  simp only [List.cons_append, lex, spanComment_of_closes closes rest]

theorem lex_char {c : Char} {t : Text} (quote : isQuoteMark c = false)
    (open_ : c = '/' → t.head? ≠ some '*') : lex (c :: t) = .char c :: lex t := by
  have no_comment : ∀ u, c = '/' → t = '*' :: u → False := by
    intro u slash star
    exact open_ slash (by simp [star])
  rw [lex.eq_3 c t no_comment, quote]
  rfl

theorem lex_quote {c : Char} (quote : isQuoteMark c = true) (t : Text) :
    lex (c :: t) = .quoted (c :: (spanQuoted c t).1) :: lex (spanQuoted c t).2 := by
  have no_comment : ∀ u, c = '/' → t = '*' :: u → False :=
    fun _ slash _ => ne_of_isQuoteMark quote rfl slash
  rw [lex.eq_3 c t no_comment, if_pos quote]

/-- Whether a character is neither a slash nor a quote, so that it is a lexeme of its own anywhere. -/
def isPlain (c : Char) : Bool :=
  c != '/' && !isQuoteMark c

theorem lex_plain {t : Text} (plain : t.all isPlain = true) (rest : Text) :
    lex (t ++ rest) = t.map .char ++ lex rest := by
  induction t with
  | nil => rfl
  | cons c t ih =>
    simp only [List.all_cons, Bool.and_eq_true, isPlain, bne_iff_ne, ne_eq, Bool.not_eq_true'] at plain
    rw [List.cons_append, lex_char plain.1.2 (fun slash => absurd slash plain.1.1), ih plain.2]
    rfl

theorem isPlain_of_isBlank {c : Char} (h : isBlank c = true) : isPlain c = true := by
  have listed : c.toNat ∈ blankCodes := by simpa [isBlank] using h
  have all : ∀ n ∈ blankCodes, isPlain (Char.ofNat n) = true := by decide
  rw [← Char.ofNat_toNat c]
  exact all c.toNat listed

theorem lex_append_of_blank {b : Text} (blank : isBlankText b = true) (t : Text) :
    lex (b ++ t) = b.map .char ++ lex t := by
  apply lex_plain
  rw [List.all_eq_true]
  intro c hc
  exact isPlain_of_isBlank (List.all_eq_true.1 blank c hc)

/-- A text whose strings and comments are all closed can be read by itself, unless it ends with a
slash that a star behind it would turn into the opening of a comment. -/
theorem lex_append {t rest : Text} (complete : (lex t).all Lexeme.isComplete = true)
    (apart : rest.head? ≠ some '*') : lex (t ++ rest) = lex t ++ lex rest := by
  fun_induction lex t with
  | case1 => rfl
  | case2 t ih =>
    simp only [List.all_cons, Bool.and_eq_true, Lexeme.isComplete] at complete
    have whole := spanComment_append t
    generalize spanComment t = cut at complete whole ih ⊢
    have read := lex_comment complete.1 (cut.2 ++ rest)
    rw [ih complete.2, ← List.append_assoc] at read
    rw [← whole]
    exact read
  | case3 c t no_comment quote ih =>
    simp only [List.all_cons, Bool.and_eq_true, Lexeme.isComplete] at complete
    have whole := spanQuoted_append c t
    generalize spanQuoted c t = cut at complete whole ih ⊢
    rw [List.cons_append, lex_quote quote, ← whole, List.append_assoc,
      spanQuoted_of_closes quote complete.1.2, ih complete.2]
    rfl
  | case4 c t no_comment quote ih =>
    simp only [List.all_cons, Bool.and_eq_true] at complete
    have go_on : c = '/' → (t ++ rest).head? ≠ some '*' := by
      intro slash
      cases t with
      | nil => exact apart
      | cons d t =>
        intro star
        exact no_comment t slash (by simpa using star)
    rw [List.cons_append, lex_char (by simpa using quote) go_on, ih complete.2]
    rfl

theorem mem_of_char_mem_lex {c : Char} {t : Text} (h : .char c ∈ lex t) : c ∈ t := by
  rw [← spell_lex t, spell, List.mem_flatten]
  exact ⟨[c], List.mem_map.2 ⟨_, h, rfl⟩, List.mem_singleton_self c⟩

end Stylesheet.Css
