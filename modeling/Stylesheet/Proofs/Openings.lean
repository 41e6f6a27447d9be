import Stylesheet.Proofs.Scoping

/-!
# Which openings of blocks are rewritten

Scoping cuts a text at its braces and semicolons. What stands in front of an opening brace is rewritten
if it is a rule and the innermost open block groups rules, or no block is open. Blocks further out do
not count: a rule in a grouping at-rule is rewritten also where that at-rule stands in the body of
another rule or of a page.

* `join_splitSelectors`: a selector list is its selectors, joined with commas;
* `scopeSelectors_ne_self`: scoping changes every selector list;
* `text_cut`, `scope_eq_cut`: the parts of a text make up the text, and scoping writes part by part;
* `scope_openings`: which openings are rewritten, and where all blocks around them group rules.
-/

namespace Stylesheet.Css

open Text

/-! ## Selector lists -/

theorem join_prepend (separator t : Text) {pieces : List Text} (some : pieces ≠ []) :
    join separator (prepend t pieces) = t ++ join separator pieces := by
  obtain ⟨first, rest, rfl⟩ := List.exists_cons_of_ne_nil some
  cases rest with
  | nil => simp [prepend, join]
  | cons second rest => simp [prepend, join_cons_cons]

theorem splitLexemes_ne_nil (depth : Nat) (ls : List Lexeme) : splitLexemes depth ls ≠ [] := by
  cases ls with
  | nil => simp [splitLexemes]
  | cons l rest =>
    unfold splitLexemes
    split
    · simp
    · cases splitLexemes (l.depth depth) rest <;> simp [prepend]

theorem join_splitLexemes (depth : Nat) (ls : List Lexeme) :
    join [','] (splitLexemes depth ls) = spell ls := by
  induction ls generalizing depth with
  | nil => rfl
  | cons l rest ih =>
    unfold splitLexemes
    split
    · rename_i comma
      obtain ⟨first, others, pieces⟩ := List.exists_cons_of_ne_nil (splitLexemes_ne_nil 0 rest)
      have later := ih 0
      rw [pieces] at later ⊢
      rw [join_cons_cons, later, comma.1]
      rfl
    · rw [join_prepend _ _ (splitLexemes_ne_nil _ rest), ih]
      rfl

theorem join_splitSelectors (t : Text) : join [','] (splitSelectors t) = t := by
  rw [splitSelectors, join_splitLexemes, spell_lex]

/-- A text is its trimmed form with blanks around it. -/
theorem append_trim (t : Text) (some : isBlankText t = false) :
    t.takeWhile isBlank ++ trim t ++ t.drop (trimEnd t).length = t := by
  have front : trimEnd t = t.takeWhile isBlank ++ trim t := by
    conv_lhs => rw [← List.takeWhile_append_dropWhile (p := isBlank) (l := t)]
    exact trimEnd_append _ (by rw [← some, ← isBlankText_trimStart t]; rfl)
  rw [← front]
  exact List.prefix_iff_eq_append.1 (trimEnd_front t)

theorem count_dropEndWhile {p : Char → Bool} {c : Char} (kept : p c = false) (t : Text) :
    (dropEndWhile p t).count c = t.count c := by
  induction t with
  | nil => rfl
  | cons d t ih =>
    rw [dropEndWhile, List.count_cons, ← ih]
    split
    · rename_i nothing
      by_cases dropped : p d = true
      · have other : d ≠ c := by
          rintro rfl
          simp [dropped] at kept
        simp [nothing, dropped, other]
      · simp [nothing, dropped, List.count_cons]
    · rename_i something
      rw [something, List.count_cons]

theorem count_trim {c : Char} (shown : isBlank c = false) (t : Text) :
    (trim t).count c = t.count c := by
  obtain ⟨b, split, blank⟩ := trimStart_append_blank t
  have none : b.count c = 0 := by
    rw [List.count_eq_zero]
    intro hc
    simp [List.all_eq_true.1 blank c hc] at shown
  conv_rhs => rw [split]
  rw [trim, trimEnd, count_dropEndWhile shown, List.count_append, none, Nat.zero_add]

theorem count_scopeSelector (id : Text) {selector : Text} (some : selector ≠ []) :
    selector.count '[' + 1 ≤ (scopeSelector (scopeAttribute id) selector).count '[' := by
  have mark : 0 < (scopeAttribute id).count '[' :=
    List.count_pos_iff.2 (List.mem_append_left _ (List.mem_append_left id (by decide)))
  unfold scopeSelector
  split
  · exact absurd rfl some
  · rw [List.count_append]
    omega
  · rw [List.count_append, List.count_append]
    omega

/-- Scoping puts a bracket in front of every selector that is not blank. -/
theorem count_join_scoped (id : Text) (pieces : List Text) :
    (join [','] pieces).count '[' + pieces.countP (!isBlankText ·) ≤
      (join ", " (pieces.map fun s => scopeSelector (scopeAttribute id) (trim s))).count '[' := by
  have one (s : Text) : s.count '[' + (if (!isBlankText s) = true then 1 else 0) ≤
      (scopeSelector (scopeAttribute id) (trim s)).count '[' := by
    rw [← count_trim (by decide) s]
    cases blank : isBlankText s with
    | true => simp [trim_eq_nil_iff.2 blank]
    | false =>
      have some : trim s ≠ [] := by simp [trim_eq_nil_iff, blank]
      simpa using count_scopeSelector id some
  induction pieces with
  | nil => simp [join]
  | cons first rest ih =>
    have head := one first
    cases rest with
    | nil => simpa [join] using head
    | cons second rest =>
      have comma : ([','] : Text).count '[' = 0 := by decide
      rw [List.map_cons] at ih
      rw [List.map_cons, List.map_cons, join_cons_cons, join_cons_cons, List.countP_cons]
      simp only [List.count_append]
      omega

theorem getLast?_join_empty {pieces : List Text} (several : 1 < pieces.length)
    (empty : ∀ s ∈ pieces, s = []) : (join ", " pieces).getLast? = some ' ' := by
  induction pieces with
  | nil => simp at several
  | cons first rest ih =>
    have others : ∀ s ∈ rest, s = [] := fun s hs => empty s (List.mem_cons_of_mem first hs)
    match rest with
    | [] => simp at several
    | [second] => simp [join, others second List.mem_cons_self]
    | second :: third :: rest =>
      rw [join_cons_cons, List.getLast?_append, ih (by simp) others, Option.some_or]

theorem isBlank_getLast?_trim {t : Text} {c : Char} (last : (trim t).getLast? = some c) :
    isBlank c = false := by
  rw [trim, trimEnd, dropEndWhile_eq_rdropWhile] at last
  have some : (trimStart t).rdropWhile isBlank ≠ [] := by
    intro none
    simp [none] at last
  rw [List.getLast?_eq_getLast_of_ne_nil some] at last
  rw [← Option.some.inj last]
  simpa using List.rdropWhile_last_not isBlank (trimStart t) some

theorem eq_nil_of_isBlankText_trim {t : Text} (blank : isBlankText (trim t) = true) :
    trim t = [] := by
  cases last : (trim t).getLast? with
  | none => exact List.getLast?_eq_none_iff.1 last
  | some c =>
    have shown := isBlank_getLast?_trim last
    rw [isBlankText_iff.1 blank c (List.mem_of_getLast? last)] at shown
    cases shown

/-- Scoping changes every selector list that has something in it. -/
theorem scopeSelectors_ne_self (id : Text) {list : Text} (some : isBlankText list = false) :
    scopeSelectors id list ≠ list := by
  intro same
  have shown : trim list ≠ [] := by simp [trim_eq_nil_iff, some]
  have body : join ", " ((splitSelectors (trim list)).map fun s =>
      scopeSelector (scopeAttribute id) (trim s)) = trim list := by
    simp only [scopeSelectors, List.isEmpty_iff, shown, if_false] at same
    have around := same.trans (append_trim list some).symm
    exact List.append_cancel_left (List.append_cancel_right around)
  -- The brackets put in front show, unless all selectors are blank; then the last space does.
  have brackets := count_join_scoped id (splitSelectors (trim list))
  rw [join_splitSelectors, body] at brackets
  have blank : ∀ s ∈ splitSelectors (trim list), isBlankText s = true := by
    have none : (splitSelectors (trim list)).countP (!isBlankText ·) = 0 := by omega
    simpa [List.countP_eq_zero] using none
  have whole := join_splitSelectors (trim list)
  generalize splitSelectors (trim list) = pieces at body blank whole
  cases pieces with
  | nil => exact shown whole.symm
  | cons s others =>
    cases others with
    | nil =>
      have own : s = trim list := by simpa [join] using whole
      exact shown (eq_nil_of_isBlankText_trim (own ▸ blank s List.mem_cons_self))
    | cons second rest =>
      have last : (join ", " ((s :: second :: rest).map fun s =>
          scopeSelector (scopeAttribute id) (trim s))).getLast? = Option.some ' ' := by
        refine getLast?_join_empty (by simp) fun t ht => ?_
        obtain ⟨piece, hp, rfl⟩ := List.mem_map.1 ht
        rw [trim_eq_nil_iff.2 (blank piece hp)]
        rfl
      rw [body] at last
      exact absurd (isBlank_getLast?_trim last) (by decide)

/-! ## The parts of a text -/

/-- A brace that opens a block: the blocks that are open there, the innermost first, and the text in
front of the brace since the last brace or semicolon. -/
structure Opening where
  around : List BlockKind
  prelude : Text
deriving DecidableEq

namespace Opening

def kind (o : Opening) : BlockKind :=
  if leads "@" (trim o.prelude) then atRuleKind (trim o.prelude) else .declarations

/-- Whether a rule is opened: something stands there that is no at-rule. -/
def isRule (o : Opening) : Bool :=
  !isBlankText o.prelude && !leads "@" (trim o.prelude)

/-- Whether all blocks around it group rules. -/
def inGroups (o : Opening) : Bool :=
  o.around.all (· == .group)

/-- How the text in front of the brace is written. -/
def written (id : Text) (o : Opening) : Text :=
  if o.isRule && holdsRules o.around then scopeSelectors id o.prelude else o.prelude

end Opening

inductive Part where
  | kept (text : Text)
  | opening (o : Opening)
deriving DecidableEq

def Part.text : Part → Text
  | kept text => text
  | opening o => o.prelude ++ ['\x7b']

def Part.written (id : Text) : Part → Text
  | kept text => text
  | opening o => o.written id ++ ['\x7b']

/-- The parts of lexemes, where `stack` has the open blocks and `pending` is the text since the last
part. -/
def cutLexemes : (stack : List BlockKind) → (pending : Text) → List Lexeme → List Part
  | _, pending, [] => [.kept pending]
  | stack, pending, .comment text :: rest =>
    if isBlankText pending then .kept (pending ++ text) :: cutLexemes stack [] rest
    else cutLexemes stack (pending ++ text) rest
  | stack, pending, .quoted text :: rest => cutLexemes stack (pending ++ text) rest
  | stack, pending, .char c :: rest =>
    if c = '\x7b' then
      .opening ⟨stack, pending⟩ :: cutLexemes (Opening.kind ⟨stack, pending⟩ :: stack) [] rest
    else if c = '\x7d' then .kept (pending ++ [c]) :: cutLexemes stack.tail [] rest
    else if c = ';' then .kept (pending ++ [c]) :: cutLexemes stack [] rest
    else cutLexemes stack (pending ++ [c]) rest

def cut (css : Text) : List Part :=
  cutLexemes [] [] (lex css)

def openings (css : Text) : List Opening :=
  (cut css).filterMap fun
    | .opening o => some o
    | .kept _ => none

theorem text_cutLexemes (stack : List BlockKind) (pending : Text) (ls : List Lexeme) :
    (cutLexemes stack pending ls).flatMap Part.text = pending ++ spell ls := by
  fun_induction cutLexemes stack pending ls <;>
    simp_all [Part.text, Lexeme.text]

theorem text_cut (css : Text) : (cut css).flatMap Part.text = css := by
  rw [cut, text_cutLexemes, spell_lex, List.nil_append]

theorem scopeSelectors_of_blank (id : Text) {list : Text} (blank : isBlankText list = true) :
    scopeSelectors id list = list := by
  simp [scopeSelectors, trim_eq_nil_iff.2 blank]

theorem openBlock_of_plain (id : Text) (stack : List BlockKind) {prelude : Text}
    (plain : leads "@" (trim prelude) = false) :
    openBlock id stack prelude =
      (if holdsRules stack then scopeSelectors id prelude else prelude, .declarations) := by
  unfold openBlock
  rw [plain, if_neg Bool.false_ne_true]
  match stack with
  | [] => rfl
  | .group :: _ => rfl
  | .keyframes :: _ => rfl
  | .declarations :: _ => rfl

theorem openBlock_eq (id : Text) (o : Opening) :
    openBlock id o.around o.prelude = (o.written id, o.kind) := by
  rw [Opening.written, Opening.isRule, Opening.kind]
  cases atRule : leads "@" (trim o.prelude) with
  | true =>
    unfold openBlock
    rw [atRule]
    simp
  | false =>
    rw [openBlock_of_plain id o.around atRule]
    cases blank : isBlankText o.prelude with
    | true => simp [scopeSelectors_of_blank id blank]
    | false => simp

theorem scopeLexemes_eq_cut (id : Text) (stack : List BlockKind) (pending : Text)
    (ls : List Lexeme) :
    scopeLexemes id stack pending ls = (cutLexemes stack pending ls).flatMap (Part.written id) := by
  fun_induction cutLexemes stack pending ls with
  | case1 stack pending => simp [scopeLexemes, Part.written]
  | case2 stack pending text rest blank ih => simp [scopeLexemes, Part.written, blank, ih]
  | case3 stack pending text rest shown ih => simp [scopeLexemes, shown, ih]
  | case4 stack pending text rest ih => simp [scopeLexemes, ih]
  | case5 stack pending rest ih =>
    rw [scopeLexemes_openBrace, openBlock_eq id ⟨stack, pending⟩, ih]
    simp [Part.written]
  | case6 stack pending rest _ ih =>
    rw [scopeLexemes_closeBrace, ih]
    simp [Part.written]
  | case7 stack pending rest _ _ ih =>
    rw [scopeLexemes_semicolon, ih]
    simp [Part.written]
  | case8 stack pending c rest no_open no_close no_end ih =>
    simp [scopeLexemes, no_open, no_close, no_end, ih]

theorem scope_eq_cut (id css : Text) : scope id css = (cut css).flatMap (Part.written id) :=
  scopeLexemes_eq_cut id [] [] (lex css)

/-! ## Which openings are rewritten -/

/-- The text in front of a brace is changed exactly if it opens a rule where rules are scoped. -/
theorem written_ne_iff (id : Text) (o : Opening) :
    o.written id ≠ o.prelude ↔ o.isRule = true ∧ holdsRules o.around = true := by
  rw [← Bool.and_eq_true_iff]
  cases changes : o.isRule && holdsRules o.around with
  | false => simp [Opening.written, changes]
  | true =>
    have shown : isBlankText o.prelude = false := by
      have rule := (Bool.and_eq_true_iff.1 changes).1
      rw [Opening.isRule] at rule
      simpa using (Bool.and_eq_true_iff.1 rule).1
    simpa [Opening.written, changes] using scopeSelectors_ne_self id shown

theorem holdsRules_iff {stack : List BlockKind} :
    holdsRules stack = true ↔ stack = [] ∨ stack.head? = some .group := by
  match stack with
  | [] => simp [holdsRules]
  | .group :: _ => simp [holdsRules]
  | .keyframes :: _ => simp [holdsRules]
  | .declarations :: _ => simp [holdsRules]

/-- A text is made of parts that are written as they are and of openings of blocks, and scoping it
changes the openings alone. An opening is changed exactly if it is that of a rule, and no block is
open or the innermost one groups rules. So all blocks around every changed opening group rules exactly
in those texts where this holds of the rules that stand in a grouping at-rule. -/
theorem scope_openings (id css : Text) :
    (cut css).flatMap Part.text = css ∧ scope id css = (cut css).flatMap (Part.written id) ∧
      (∀ o ∈ openings css, o.written id ≠ o.prelude ↔
        o.isRule = true ∧ (o.around = [] ∨ o.around.head? = some .group)) ∧
      ((∀ o ∈ openings css, o.written id ≠ o.prelude → o.inGroups = true) ↔
        ∀ o ∈ openings css, o.isRule = true → o.around.head? = some .group →
          o.inGroups = true) := by
  have changed (o : Opening) : o.written id ≠ o.prelude ↔
      o.isRule = true ∧ (o.around = [] ∨ o.around.head? = some .group) := by
    rw [written_ne_iff, holdsRules_iff]
  refine ⟨text_cut css, scope_eq_cut id css, fun o _ => changed o, ?_⟩
  constructor
  · intro all o ho rule group
    exact all o ho ((changed o).2 ⟨rule, .inr group⟩)
  · intro inner o ho rewritten
    obtain ⟨rule, top | group⟩ := (changed o).1 rewritten
    · rw [Opening.inGroups, top]
      rfl
    · exact inner o ho rule group

/-- A rule in an at-rule that groups rules, in the body of a page: it is rewritten, although nothing
in a page is to be scoped. -/
theorem scope_rule_in_page :
    scope "t" "@page\x7b@media print\x7bp\x7b\x7d\x7d\x7d" =
        "@page\x7b@media print\x7b[data-tom=\"t\"] p\x7b\x7d\x7d\x7d" ∧
      ∃ o ∈ openings "@page\x7b@media print\x7bp\x7b\x7d\x7d\x7d",
        o.written "t" ≠ o.prelude ∧ o.inGroups = false := by
  refine ⟨by decide +kernel, ⟨[.group, .declarations], "p"⟩, by decide +kernel, by decide +kernel, rfl⟩

end Stylesheet.Css
