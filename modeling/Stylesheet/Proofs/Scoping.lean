import Stylesheet.Css.Scope
import Stylesheet.Proofs.Lexing

/-!
# What scoping does to the parts of a text

Scoping reads one lexeme after another and keeps a stack of open blocks and some pending text. The
relation `Rewrites` says what becomes of a part of a text without naming the two: the part is read
with only blanks pending and leaves only blanks pending.

* `Rewrites.append`: parts are rewritten one by one;
* `Rewrites.block`: a block is rewritten through its opening and what it holds;
* `scope_of_rewrites`: a text that is made of such parts is scoped part by part.
-/

namespace Stylesheet.Css

open Text

/-- Whether a lexeme can stand inside a text without ending it: it is complete and no brace. -/
def Lexeme.isInner (l : Lexeme) : Bool :=
  l.isComplete && l != .char '\x7b' && l != .char '\x7d'

/-- Whether a text can be the body of a block: its strings and comments are closed, and it has no
brace outside them. -/
def isBody (t : Text) : Bool :=
  (lex t).all Lexeme.isInner

/-- Whether a text can open a block: it could be a body and has no semicolon outside its strings and
comments. -/
def isPrelude (t : Text) : Bool :=
  (lex t).all fun l => l.isInner && l != .char ';'

theorem Lexeme.isInner_iff {l : Lexeme} :
    l.isInner = true ↔ l.isComplete = true ∧ l ≠ .char '\x7b' ∧ l ≠ .char '\x7d' := by
  simp [isInner, and_assoc]

theorem complete_of_isBody {t : Text} (h : isBody t = true) :
    (lex t).all Lexeme.isComplete = true := by
  rw [isBody, List.all_eq_true] at h
  exact List.all_eq_true.2 fun l hl => (Lexeme.isInner_iff.1 (h l hl)).1

theorem isBody_of_isPrelude {t : Text} (h : isPrelude t = true) : isBody t = true := by
  rw [isPrelude, List.all_eq_true] at h
  refine List.all_eq_true.2 fun l hl => ?_
  have inner := h l hl
  rw [Bool.and_eq_true] at inner
  exact inner.1

theorem isBody_append {t u : Text} (ht : isBody t = true) (hu : isBody u = true)
    (apart : u.head? ≠ some '*') : isBody (t ++ u) = true := by
  rw [isBody, lex_append (complete_of_isBody ht) apart, List.all_append, Bool.and_eq_true]
  exact ⟨ht, hu⟩

/-- Whether the first lexeme that is no blank is a comment. -/
def opensWithComment : List Lexeme → Bool
  | .comment _ :: _ => true
  | .char c :: rest => isBlank c && opensWithComment rest
  | _ => false

theorem opensWithComment_lex (t : Text) :
    opensWithComment (lex t) = leads "/*" (trimStart t) := by
  induction t with
  | nil => simp [lex, opensWithComment, trimStart, leads]
  | cons c t ih =>
    cases blank : isBlank c with
    | true =>
      have plain : ([c] : Text).all isPlain = true := by simp [isPlain_of_isBlank blank]
      have read := lex_plain plain t
      simp only [List.singleton_append, List.map_cons, List.map_nil] at read
      rw [read, opensWithComment, blank, Bool.true_and, ih, trimStart, trimStart,
        List.dropWhile_cons_of_pos blank]
    | false =>
      have stays : trimStart (c :: t) = c :: t := by simp [trimStart, blank]
      rw [stays]
      by_cases comment : c = '/' ∧ t.head? = some '*'
      · obtain ⟨rfl, star⟩ := comment
        obtain ⟨u, rfl⟩ : ∃ u, t = '*' :: u := by
          cases t with
          | nil => simp at star
          | cons d u => exact ⟨u, by simpa using star⟩
        simp [lex, opensWithComment, leads]
      · have closed : leads "/*" (c :: t) = false := by
          rw [Bool.eq_false_iff]
          intro lead
          obtain ⟨u, split⟩ := List.isPrefixOf_iff_prefix.1 lead
          obtain ⟨rfl, rfl⟩ : '/' = c ∧ '*' :: u = t := by simpa using split
          exact comment ⟨rfl, rfl⟩
        have no_comment : ∀ u, c = '/' → t = '*' :: u → False :=
          fun u slash star => comment ⟨slash, by simp [star]⟩
        rw [closed, lex.eq_3 c t no_comment]
        split <;> simp [opensWithComment, blank]

variable {id : Text} {stack : List BlockKind}

theorem isBlankText_of_quoted {text : Text} (h : (Lexeme.quoted text).isComplete = true) :
    isBlankText text = false := by
  cases text with
  | nil => simp [Lexeme.isComplete] at h
  | cons mark body =>
    simp only [Lexeme.isComplete, Bool.and_eq_true, isQuoteMark, Bool.or_eq_true, beq_iff_eq] at h
    have visible : isBlank mark = false := by
      rcases h.1 with rfl | rfl <;> decide
    simp [isBlankText, visible]

/-- The opening of a block becomes pending as a whole, unless a comment stands at its front. -/
theorem scopeLexemes_prelude {ls : List Lexeme}
    (inner : ls.all (fun l => l.isInner && l != .char ';') = true) (pending : Text)
    (front : isBlankText pending = true → opensWithComment ls = false) (rest : List Lexeme) :
    scopeLexemes id stack pending (ls ++ rest) =
      scopeLexemes id stack (pending ++ spell ls) rest := by
  induction ls generalizing pending with
  | nil => simp
  | cons l ls ih =>
    simp only [List.all_cons, Bool.and_eq_true, bne_iff_ne, ne_eq, Lexeme.isInner_iff] at inner
    obtain ⟨⟨⟨complete, no_open, no_close⟩, no_end⟩, others⟩ := inner
    have next (front' : isBlankText (pending ++ l.text) = true → opensWithComment ls = false) :=
      ih others (pending ++ l.text) front'
    simp only [List.append_assoc] at next
    cases l with
    | comment text =>
      have held : isBlankText pending = false := by
        simpa [opensWithComment] using front
      rw [List.cons_append, scopeLexemes, held, if_neg (by simp)]
      exact next (by simp [isBlankText_append, held])
    | quoted text =>
      rw [List.cons_append, scopeLexemes]
      exact next (by simp [isBlankText_append, Lexeme.text, isBlankText_of_quoted complete])
    | char c =>
      simp only [Lexeme.char.injEq] at no_open no_close no_end
      rw [List.cons_append, scopeLexemes, if_neg no_open, if_neg no_close, if_neg no_end]
      refine next fun blank => ?_
      simp only [isBlankText_append, Bool.and_eq_true, Lexeme.text] at blank
      have shown : isBlank c = true := by simpa [isBlankText] using blank.2
      simpa [opensWithComment, shown] using front blank.1

/-- What stands in a block without opening another is written as it is. How much of it is still
pending at the end depends on its semicolons and comments. -/
theorem scopeLexemes_body (id : Text) (stack : List BlockKind) {ls : List Lexeme}
    (inner : ls.all Lexeme.isInner = true) (pending : Text) :
    ∃ done left, done ++ left = pending ++ spell ls ∧ ∀ rest,
      scopeLexemes id stack pending (ls ++ rest) = done ++ scopeLexemes id stack left rest := by
  induction ls generalizing pending with
  | nil => exact ⟨[], pending, by simp, fun rest => rfl⟩
  | cons l ls ih =>
    simp only [List.all_cons, Bool.and_eq_true, Lexeme.isInner_iff, ne_eq] at inner
    obtain ⟨⟨-, no_open, no_close⟩, others⟩ := inner
    -- Either the lexeme joins what is pending, or it ends it and nothing is pending any more.
    have kept (read : ∀ rest, scopeLexemes id stack pending (l :: rest) =
        scopeLexemes id stack (pending ++ l.text) rest) :
        ∃ done left, done ++ left = pending ++ spell (l :: ls) ∧ ∀ rest,
          scopeLexemes id stack pending (l :: ls ++ rest) =
            done ++ scopeLexemes id stack left rest := by
      obtain ⟨done, left, whole, run⟩ := ih others (pending ++ l.text)
      refine ⟨done, left, by rw [whole]; simp, fun rest => ?_⟩
      rw [List.cons_append, read, run]
    have flushed (read : ∀ rest, scopeLexemes id stack pending (l :: rest) =
        pending ++ l.text ++ scopeLexemes id stack [] rest) :
        ∃ done left, done ++ left = pending ++ spell (l :: ls) ∧ ∀ rest,
          scopeLexemes id stack pending (l :: ls ++ rest) =
            done ++ scopeLexemes id stack left rest := by
      obtain ⟨done, left, whole, run⟩ := ih others []
      refine ⟨pending ++ l.text ++ done, left, by simp [whole], fun rest => ?_⟩
      rw [List.cons_append, read, run, List.append_assoc _ done]
    cases l with
    | comment text =>
      cases blank : isBlankText pending with
      | true => exact flushed fun rest => by simp [scopeLexemes, blank, Lexeme.text]
      | false => exact kept fun rest => by simp [scopeLexemes, blank, Lexeme.text]
    | quoted text => exact kept fun rest => by simp [scopeLexemes, Lexeme.text]
    | char c =>
      simp only [Lexeme.char.injEq] at no_open no_close
      by_cases ends : c = ';'
      · exact flushed fun rest => by simp [scopeLexemes, ends, Lexeme.text]
      · exact kept fun rest => by simp [scopeLexemes, no_open, no_close, ends, Lexeme.text]

theorem scopeLexemes_openBrace (pending : Text) (rest : List Lexeme) :
    scopeLexemes id stack pending (.char '\x7b' :: rest) =
      (openBlock id stack pending).1 ++
        '\x7b' :: scopeLexemes id ((openBlock id stack pending).2 :: stack) [] rest := by
  simp [scopeLexemes]

theorem scopeLexemes_closeBrace (pending : Text) (rest : List Lexeme) :
    scopeLexemes id stack pending (.char '\x7d' :: rest) =
      pending ++ '\x7d' :: scopeLexemes id stack.tail [] rest := by
  simp [scopeLexemes]

theorem scopeLexemes_semicolon (pending : Text) (rest : List Lexeme) :
    scopeLexemes id stack pending (.char ';' :: rest) =
      pending ++ ';' :: scopeLexemes id stack [] rest := by
  simp [scopeLexemes]

theorem lex_openBrace (t : Text) : lex ('\x7b' :: t) = .char '\x7b' :: lex t :=
  lex_char (by decide) (by simp)

theorem lex_closeBrace (t : Text) : lex ('\x7d' :: t) = .char '\x7d' :: lex t :=
  lex_char (by decide) (by simp)

theorem lex_semicolon (t : Text) : lex (';' :: t) = .char ';' :: lex t :=
  lex_char (by decide) (by simp)

theorem not_delimiter_of_isBlank {c : Char} (h : isBlank c = true) :
    c ≠ '\x7b' ∧ c ≠ '\x7d' ∧ c ≠ ';' := by
  refine ⟨?_, ?_, ?_⟩ <;> rintro rfl <;> revert h <;> decide

/-- Where the blocks of `stack` are open and only blanks are pending, `t` is written as `u` and leaves
only blanks pending, whatever stands behind it. -/
def Rewrites (id : Text) (stack : List BlockKind) (t u : Text) : Prop :=
  ∀ b, isBlankText b = true → ∃ done left, isBlankText left = true ∧ done ++ left = b ++ u ∧
    ∀ rest, scopeLexemes id stack b (lex (t ++ rest)) =
      done ++ scopeLexemes id stack left (lex rest)

/-- Where the innermost block of `stack` was just opened, `t` is written as `u` up to the brace that
closes the block. -/
def RewritesInside (id : Text) (stack : List BlockKind) (t u : Text) : Prop :=
  ∀ rest, scopeLexemes id stack [] (lex (t ++ '\x7d' :: rest)) =
    u ++ '\x7d' :: scopeLexemes id stack.tail [] (lex rest)

theorem scope_of_rewrites {t u : Text} (h : Rewrites id [] t u) : scope id t = u := by
  obtain ⟨done, left, -, whole, run⟩ := h [] rfl
  have read := run []
  rw [List.append_nil, lex, scopeLexemes] at read
  rw [scope, read, whole, List.nil_append]

theorem RewritesInside.body (id : Text) (stack : List BlockKind) {t : Text} (h : isBody t = true) :
    RewritesInside id stack t t := by
  intro rest
  obtain ⟨done, left, whole, run⟩ := scopeLexemes_body id stack h []
  rw [lex_append (complete_of_isBody h) (by simp), run, lex_closeBrace,
    scopeLexemes_closeBrace, ← List.append_assoc, whole, List.nil_append, spell_lex]

/-- A block as it is written: its opening, and what it holds between braces. -/
def braced (opening inner : Text) : Text :=
  opening ++ '\x7b' :: inner ++ ['\x7d']

theorem braced_append (opening inner rest : Text) :
    braced opening inner ++ rest = opening ++ '\x7b' :: (inner ++ '\x7d' :: rest) := by
  simp [braced]

namespace Rewrites

theorem nil : Rewrites id stack [] [] :=
  fun b blank => ⟨[], b, blank, by simp, fun _ => rfl⟩

theorem append {t t' u u' : Text} (h : Rewrites id stack t u) (h' : Rewrites id stack t' u') :
    Rewrites id stack (t ++ t') (u ++ u') := by
  intro b blank
  obtain ⟨done, mid, between, whole, run⟩ := h b blank
  obtain ⟨done', left, after, whole', run'⟩ := h' mid between
  refine ⟨done ++ done', left, after, ?_, fun rest => ?_⟩
  · rw [List.append_assoc, whole', ← List.append_assoc, whole, List.append_assoc]
  · rw [List.append_assoc, run, run', List.append_assoc]

theorem blank {t : Text} (h : isBlankText t = true) : Rewrites id stack t t := by
  intro b blank
  refine ⟨[], b ++ t, by simp [isBlankText_append, h, blank], rfl, fun rest => ?_⟩
  induction t generalizing b with
  | nil => simp
  | cons c t ih =>
    obtain ⟨hc, ht⟩ : isBlank c = true ∧ isBlankText t = true := by simpa [isBlankText] using h
    obtain ⟨no_open, no_close, no_end⟩ := not_delimiter_of_isBlank hc
    have plain : ([c] : Text).all isPlain = true := by simp [isPlain_of_isBlank hc]
    have next := ih ht (b ++ [c]) (by rw [isBlankText_append, blank]; simp [isBlankText, hc])
    rw [List.cons_append, ← List.singleton_append, lex_plain plain, List.map_singleton,
      List.singleton_append, scopeLexemes, if_neg no_open, if_neg no_close, if_neg no_end, next]
    simp

theorem comment {t : Text} (h : (Lexeme.comment t).isComplete = true) : Rewrites id stack t t := by
  intro b blank
  obtain ⟨body, rfl, closes⟩ : ∃ body, t = '/' :: '*' :: body ∧ closesComment body = true := by
    unfold Lexeme.isComplete at h
    split at h
    · rename_i body same
      exact ⟨body, Lexeme.comment.inj same, h⟩
    all_goals simp_all
  refine ⟨b ++ '/' :: '*' :: body, [], rfl, by simp, fun rest => ?_⟩
  rw [lex_comment closes, scopeLexemes, if_pos blank]

theorem statement {t : Text} (h : isBody t = true) :
    Rewrites id stack (t ++ [';']) (t ++ [';']) := by
  intro b _
  obtain ⟨done, left, whole, run⟩ := scopeLexemes_body id stack h b
  refine ⟨done ++ left ++ [';'], [], rfl, by rw [whole]; simp, fun rest => ?_⟩
  rw [List.append_assoc, List.singleton_append, lex_append (complete_of_isBody h) (by simp),
    lex_semicolon, run, scopeLexemes_semicolon]
  simp

theorem inside {t u : Text} (h : Rewrites id stack t u) : RewritesInside id stack t u := by
  intro rest
  obtain ⟨done, left, -, whole, run⟩ := h [] rfl
  rw [run, lex_closeBrace, scopeLexemes_closeBrace, ← List.append_assoc, whole, List.nil_append]

/-- A block is written with its opening as `openBlock` gives it, in front of what it holds. -/
theorem block {prelude written inner outer : Text} {kind : BlockKind}
    (opening : isPrelude prelude = true) (front : leads "/*" (trimStart prelude) = false)
    (opens : ∀ b, isBlankText b = true →
      openBlock id stack (b ++ prelude) = (b ++ written, kind))
    (inside : RewritesInside id (kind :: stack) inner outer) :
    Rewrites id stack (braced prelude inner) (braced written outer) := by
  intro b blank
  refine ⟨b ++ braced written outer, [], rfl, by simp, fun rest => ?_⟩
  have complete := complete_of_isBody (isBody_of_isPrelude opening)
  rw [braced_append, lex_append complete (by simp), lex_openBrace,
    scopeLexemes_prelude opening b (fun _ => by rw [opensWithComment_lex, front]), spell_lex,
    scopeLexemes_openBrace, opens b blank, inside rest]
  simp [braced]

/-- A block whose opening is not rewritten is written as it is if it holds no other block. -/
theorem verbatimBlock {prelude body : Text} (opening : isBody prelude = true)
    (kept : ∀ t, (openBlock id stack t).1 = t) (inner : isBody body = true) :
    Rewrites id stack (braced prelude body) (braced prelude body) := by
  intro b _
  obtain ⟨done, left, whole, run⟩ := scopeLexemes_body id stack opening b
  refine ⟨b ++ braced prelude body, [], rfl, by simp, fun rest => ?_⟩
  have read := RewritesInside.body id ((openBlock id stack left).2 :: stack) inner rest
  rw [braced_append, lex_append (complete_of_isBody opening) (by simp), lex_openBrace, run,
    scopeLexemes_openBrace, kept, read, ← List.append_assoc, whole, spell_lex]
  simp [braced]

end Rewrites

theorem leads_at_trim (t : Text) : leads "@" (trim t) = leads "@" (trimStart t) := by
  rw [Bool.eq_iff_iff]
  exact leads_single_iff.trans (by rw [head?_trim]; exact leads_single_iff.symm)

theorem openBlock_atRule {prelude : Text} (at_ : leads "@" (trimStart prelude) = true) {b : Text}
    (blank : isBlankText b = true) :
    openBlock id stack (b ++ prelude) = (b ++ prelude, atRuleKind (trim prelude)) := by
  unfold openBlock
  rw [trim_append_of_blank blank, leads_at_trim, if_pos at_]

/-- Blanks in front of a selector list stay in front of it. -/
theorem scopeSelectors_append_of_blank {b list : Text} (blank : isBlankText b = true)
    (shown : isBlankText list = false) :
    scopeSelectors id (b ++ list) = b ++ scopeSelectors id list := by
  have some : (trim list).isEmpty = false := by
    rw [List.isEmpty_eq_false_iff, ne_eq, trim_eq_nil_iff, shown]
    simp
  simp only [scopeSelectors, trim_append_of_blank blank, some, trimEnd_append b shown,
    List.takeWhile_append_of_pos (isBlankText_iff.1 blank), List.length_append,
    List.drop_length_add_append, Bool.false_eq_true, if_false, List.append_assoc]

/-- Whether rules in the innermost open block are scoped: there is none, or it groups rules. -/
def holdsRules : List BlockKind → Bool
  | [] => true
  | .group :: _ => true
  | _ => false

theorem openBlock_style {prelude : Text} (rules : holdsRules stack = true)
    (shown : isBlankText prelude = false) (plain : leads "@" (trimStart prelude) = false) {b : Text}
    (blank : isBlankText b = true) :
    openBlock id stack (b ++ prelude) = (b ++ scopeSelectors id prelude, .declarations) := by
  unfold openBlock
  rw [trim_append_of_blank blank, leads_at_trim, plain, if_neg (by simp),
    ← scopeSelectors_append_of_blank blank shown]
  match stack, rules with
  | [], _ => rfl
  | .group :: _, _ => rfl

end Stylesheet.Css
