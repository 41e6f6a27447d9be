import Stylesheet.Proofs.Openings

/-!
# Where scoping puts its attribute

Scoping drops and adds blanks, and puts the attribute in front of selectors. Apart from that it keeps
every character of a text, in its place, also where strings, comments and blocks are left open.

* `CutAtCommas`: lexemes cut at the commas outside brackets, as a relation;
* `exists_cutAtCommas`: the selectors of a list are found by that cut;
* `splitLexemes_append_blank`: blanks at the end of a list move none of the commas it is cut at;
* `visible_scopeSelectors`: the characters that are not blank of a scoped list of selectors;
* `visible_scope`: the attribute stands in front of the selectors of changed lists, and only there.
-/

namespace Stylesheet.Text

/-- The characters of a text that are not blank. -/
def visible (t : Text) : Text :=
  t.filter fun c => !isBlank c

@[simp] theorem visible_nil : visible [] = [] := rfl

@[simp] theorem visible_append (t u : Text) : visible (t ++ u) = visible t ++ visible u :=
  List.filter_append t u

theorem visible_eq_nil_iff {t : Text} : visible t = [] ↔ isBlankText t = true := by
  simp [visible, isBlankText_iff]

theorem visible_append_blank (t : Text) {b : Text} (blank : isBlankText b = true) :
    visible (t ++ b) = visible t := by
  rw [visible_append, visible_eq_nil_iff.2 blank, List.append_nil]

theorem visible_flatMap {α : Type} (f : α → Text) (l : List α) :
    visible (l.flatMap f) = l.flatMap fun a => visible (f a) :=
  List.filter_flatMap

theorem visible_join (separator : Text) (pieces : List Text) :
    visible (join separator pieces) = join (visible separator) (pieces.map visible) := by
  induction pieces with
  | nil => rfl
  | cons first rest ih =>
    cases rest with
    | nil => simp [join]
    | cons second rest =>
      rw [List.map_cons] at ih
      rw [List.map_cons, List.map_cons, join_cons_cons, join_cons_cons, visible_append,
        visible_append, ih]

/-- What is trimmed off the front of a text is blank. -/
theorem isBlankText_takeWhile (t : Text) : isBlankText (t.takeWhile isBlank) = true := by
  rw [isBlankText_iff]
  intro c hc
  exact List.mem_takeWhile_imp hc

/-- What is trimmed off the end of a text is blank. -/
theorem isBlankText_drop_trimEnd (t : Text) :
    isBlankText (t.drop (trimEnd t).length) = true := by
  have whole : trimEnd t ++ t.rtakeWhile isBlank = t := by
    rw [trimEnd, dropEndWhile_eq_rdropWhile]
    exact List.rdropWhile_append_rtakeWhile
  have back : t.drop (trimEnd t).length = t.rtakeWhile isBlank := by
    have apart := List.prefix_iff_eq_append.1 (trimEnd_front t)
    exact List.append_cancel_left (apart.trans whole.symm)
  rw [back, isBlankText_iff]
  intro c hc
  exact List.mem_rtakeWhile_imp hc

end Stylesheet.Text

namespace Stylesheet.Css

open Text

theorem visible_trim (t : Text) : visible (trim t) = visible t := by
  cases blank : isBlankText t with
  | true =>
    rw [trim_eq_nil_iff.2 blank, visible_eq_nil_iff.2 blank]
    rfl
  | false =>
    conv_rhs => rw [← append_trim t blank]
    rw [visible_append_blank _ (isBlankText_drop_trimEnd t), visible_append,
      visible_eq_nil_iff.2 (isBlankText_takeWhile t), List.nil_append]

/-! ## The commas of a list -/

/-- The brackets that lexemes open are closed in them; a closing one too many counts for nothing. -/
def Balanced (ls : List Lexeme) : Prop :=
  ls.foldl Lexeme.depth 0 = 0

/-- Every comma among the lexemes stands in brackets. -/
def Unbroken (ls : List Lexeme) : Prop :=
  ∀ before after, ls = before ++ .char ',' :: after → ¬ Balanced before

/-- Lexemes cut into cells at all commas outside brackets. -/
inductive CutAtCommas : List Lexeme → List (List Lexeme) → Prop
  | last {cell : List Lexeme} (unbroken : Unbroken cell) : CutAtCommas cell [cell]
  | comma {cell rest : List Lexeme} {cells : List (List Lexeme)} (unbroken : Unbroken cell)
      (balanced : Balanced cell) (later : CutAtCommas rest cells) :
      CutAtCommas (cell ++ .char ',' :: rest) (cell :: cells)

theorem unbroken_nil : Unbroken [] := by
  intro before after whole
  simp at whole

theorem Unbroken.concat {ls : List Lexeme} (h : Unbroken ls) {l : Lexeme}
    (inside : l = .char ',' → ¬ Balanced ls) : Unbroken (ls ++ [l]) := by
  intro before after whole
  obtain ⟨between, rfl, behind⟩ | ⟨between, rfl, behind⟩ := List.append_eq_append_iff.1 whole
  · cases between with
    | nil =>
      rw [List.append_nil]
      exact inside (by simpa using congrArg List.head? behind)
    | cons d between => simp at behind
  · cases between with
    | nil =>
      rw [List.append_nil] at inside
      exact inside (by simpa using (congrArg List.head? behind).symm)
    | cons d between =>
      rw [List.cons_append] at behind
      exact h before between (by rw [(List.cons.inj behind).1])

theorem prepend_prepend (t u : Text) (pieces : List Text) :
    prepend t (prepend u pieces) = prepend (t ++ u) pieces := by
  cases pieces <;> simp [prepend]

theorem prepend_nil {pieces : List Text} (some : pieces ≠ []) : prepend [] pieces = pieces := by
  obtain ⟨first, rest, rfl⟩ := List.exists_cons_of_ne_nil some
  rfl

/-- The induction is on what is still to be cut; `cell` is the cell begun so far. -/
theorem cutAtCommas_splitLexemes {cell : List Lexeme} (unbroken : Unbroken cell)
    (ls : List Lexeme) :
    ∃ cells, CutAtCommas (cell ++ ls) cells ∧
      cells.map spell = prepend (spell cell) (splitLexemes (cell.foldl Lexeme.depth 0) ls) := by
  induction ls generalizing cell with
  | nil =>
    refine ⟨[cell], ?_, by simp [splitLexemes, prepend]⟩
    rw [List.append_nil]
    exact .last unbroken
  | cons l rest ih =>
    by_cases cuts : l = .char ',' ∧ cell.foldl Lexeme.depth 0 = 0
    · obtain ⟨cells, later, texts⟩ := ih unbroken_nil
      refine ⟨cell :: cells, ?_, ?_⟩
      · rw [cuts.1]
        exact .comma unbroken cuts.2 later
      · rw [List.map_cons, texts, spell_nil, prepend_nil (splitLexemes_ne_nil _ rest),
          splitLexemes, if_pos cuts, prepend, List.append_nil]
        rfl
    · have longer : Unbroken (cell ++ [l]) :=
        unbroken.concat fun comma balanced => cuts ⟨comma, balanced⟩
      obtain ⟨cells, cut, texts⟩ := ih longer
      refine ⟨cells, by simpa using cut, ?_⟩
      rw [texts, splitLexemes, if_neg cuts, prepend_prepend, List.foldl_concat]
      simp [spell]

/-- The selectors of a list are what its commas outside brackets separate. -/
theorem exists_cutAtCommas (list : Text) :
    ∃ cells, CutAtCommas (lex list) cells ∧ cells.map spell = splitSelectors list := by
  obtain ⟨cells, cut, texts⟩ := cutAtCommas_splitLexemes unbroken_nil (lex list)
  refine ⟨cells, cut, ?_⟩
  rw [texts, spell_nil, prepend_nil (splitLexemes_ne_nil _ _)]
  rfl

/-! ## Blanks around a list -/

theorem depth_of_isBlank {c : Char} (blank : isBlank c = true) (depth : Nat) :
    Lexeme.depth depth (.char c) = depth := by
  unfold Lexeme.depth
  split
  case h_5 => rfl
  all_goals
    rename_i bracket
    cases bracket
    exact absurd blank (by decide)

theorem splitLexemes_blank {b : Text} (blank : isBlankText b = true) (depth : Nat)
    (ls : List Lexeme) :
    splitLexemes depth (b.map .char ++ ls) = prepend b (splitLexemes depth ls) := by
  induction b with
  | nil => exact (prepend_nil (splitLexemes_ne_nil depth ls)).symm
  | cons c b ih =>
    have own : isBlank c = true := isBlankText_iff.1 blank c List.mem_cons_self
    have others : isBlankText b = true := (Bool.and_eq_true_iff.1 blank).2
    have comma : Lexeme.char c ≠ .char ',' := by
      rintro ⟨⟩
      exact absurd own (by decide)
    rw [List.map_cons, List.cons_append, splitLexemes, if_neg (fun cuts => comma cuts.1),
      depth_of_isBlank own, ih others, prepend_prepend]
    rfl

/-- Where a text is cut, `b` behind it does not count: it is left over with the rest, or else the whole
text is taken, with and without it. -/
def Passes (span : Text → Text × Text) (t b : Text) : Prop :=
  span (t ++ b) = ((span t).1, (span t).2 ++ b) ∨ span t = (t, []) ∧ span (t ++ b) = (t ++ b, [])

theorem Passes.behind {span : Text → Text × Text} {t b : Text} (h : Passes span t b) (front : Text)
    (short : span (front ++ t) = (front ++ (span t).1, (span t).2))
    (long : span (front ++ (t ++ b)) = (front ++ (span (t ++ b)).1, (span (t ++ b)).2)) :
    Passes span (front ++ t) b := by
  unfold Passes
  rw [List.append_assoc, long, short]
  obtain closed | ⟨open_, longer⟩ := h
  · left
    rw [closed]
  · right
    rw [open_, longer]
    exact ⟨rfl, rfl⟩

theorem spanComment_blank {b : Text} (blank : isBlankText b = true) : spanComment b = (b, []) := by
  induction b with
  | nil => rfl
  | cons c b ih =>
    have own : isBlank c = true := isBlankText_iff.1 blank c List.mem_cons_self
    have go_on : ∀ u, c = '*' → b = '/' :: u → False := by
      rintro u rfl
      exact absurd own (by decide)
    rw [spanComment.eq_3 c b go_on, ih (Bool.and_eq_true_iff.1 blank).2]

theorem spanComment_passes {b : Text} (blank : isBlankText b = true) (t : Text) :
    Passes spanComment t b := by
  fun_induction spanComment t with
  | case1 => exact .inr ⟨rfl, spanComment_blank blank⟩
  | case2 t => exact .inl rfl
  | case3 c t early body rest cut ih =>
    have go_on : ∀ u, c = '*' → t ++ b = '/' :: u → False := by
      intro u star slash
      cases t with
      | nil =>
        rw [List.nil_append] at slash
        rw [slash] at blank
        exact absurd (isBlankText_iff.1 blank '/' List.mem_cons_self) (by decide)
      | cons d t => exact early t star (by rw [(List.cons.inj slash).1])
    exact ih.behind [c] (spanComment.eq_3 c t early)
      (spanComment.eq_3 c (t ++ b) go_on)

theorem spanQuoted_blank {mark : Char} (quote : isQuoteMark mark = true) {b : Text}
    (blank : isBlankText b = true) : spanQuoted mark b = (b, []) := by
  have shown : isBlank mark = false := by
    obtain rfl | rfl : mark = '"' ∨ mark = '\'' := by simpa [isQuoteMark] using quote
    all_goals decide
  fun_induction spanQuoted mark b with
  | case1 => rfl
  | case2 c => rfl
  | case3 d b body rest cut ih =>
    exact absurd (isBlankText_iff.1 blank '\\' List.mem_cons_self) (by decide)
  | case4 d b no_escape =>
    rw [isBlankText_iff.1 blank mark List.mem_cons_self] at shown
    cases shown
  | case5 c d b no_escape no_mark body rest cut ih =>
    have whole := ih (Bool.and_eq_true_iff.1 blank).2
    obtain ⟨rfl, rfl⟩ := Prod.mk.inj (cut.symm.trans whole)
    rfl

theorem spanQuoted_passes {mark : Char} (quote : isQuoteMark mark = true) {b : Text}
    (blank : isBlankText b = true) (t : Text) : Passes (spanQuoted mark) t b := by
  fun_induction spanQuoted mark t with
  | case1 => exact .inr ⟨rfl, spanQuoted_blank quote blank⟩
  | case2 c =>
    -- A last backslash takes the first blank with it, which is no mark either.
    cases b with
    | nil => exact .inr ⟨rfl, rfl⟩
    | cons d b =>
      have others : isBlankText b = true := (Bool.and_eq_true_iff.1 blank).2
      unfold Passes
      rw [List.singleton_append, spanQuoted.eq_3]
      split
      · exact .inr ⟨rfl, by rw [spanQuoted_blank quote others]⟩
      · split
        · exact .inl rfl
        · exact .inr ⟨rfl, by rw [spanQuoted_blank quote blank]⟩
  | case3 d t body rest cut ih =>
    exact ih.behind ['\\', d] rfl rfl
  | case4 d t no_escape =>
    left
    rw [List.cons_append, List.cons_append, spanQuoted, if_neg no_escape, if_pos rfl]
    simp [spanQuoted, no_escape]
  | case5 c d t no_escape no_mark body rest cut ih =>
    refine ih.behind [c] ?_ ?_
    all_goals simp [spanQuoted, no_escape, no_mark]

theorem map_visible_prepend {t u : Text} (same : visible t = visible u) {pieces pieces' : List Text}
    (later : pieces.map visible = pieces'.map visible) :
    (prepend t pieces).map visible = (prepend u pieces').map visible := by
  cases pieces <;> cases pieces' <;> simp_all [prepend]

theorem map_visible_splitLexemes_cons (depth : Nat) (l : Lexeme) {rest rest' : List Lexeme}
    (later : ∀ depth,
      (splitLexemes depth rest).map visible = (splitLexemes depth rest').map visible) :
    (splitLexemes depth (l :: rest)).map visible =
      (splitLexemes depth (l :: rest')).map visible := by
  rw [splitLexemes, splitLexemes]
  split
  · rw [List.map_cons, List.map_cons, later]
  · exact map_visible_prepend rfl (later _)

theorem splitLexemes_singleton (depth : Nat) {l : Lexeme} (comma : l ≠ .char ',') :
    splitLexemes depth [l] = [l.text] := by
  rw [splitLexemes, if_neg (fun cuts => comma cuts.1)]
  simp [splitLexemes, prepend]

/-- Blanks at the end of a list, even in a string or comment that is left open there, move none of the
commas that the list is cut at. -/
theorem splitLexemes_append_blank {b : Text} (blank : isBlankText b = true) (depth : Nat)
    (t : Text) :
    (splitLexemes depth (lex (t ++ b))).map visible = (splitLexemes depth (lex t)).map visible := by
  fun_induction lex t generalizing depth with
  | case1 =>
    have chars := lex_append_of_blank blank []
    rw [List.append_nil, lex] at chars
    rw [List.nil_append, chars, splitLexemes_blank blank, splitLexemes, prepend, List.append_nil]
    exact congrArg ([·]) (visible_append_blank [] blank)
  | case2 t ih =>
    rw [List.cons_append, List.cons_append, lex.eq_2]
    obtain closed | ⟨open_, longer⟩ := spanComment_passes blank t
    · rw [closed]
      exact map_visible_splitLexemes_cons depth _ ih
    · rw [open_, longer, lex, splitLexemes_singleton depth (by simp),
        splitLexemes_singleton depth (by simp)]
      exact congrArg ([·]) (visible_append_blank ('/' :: '*' :: t) blank)
  | case3 c t no_comment quote ih =>
    rw [List.cons_append, lex_quote quote]
    obtain closed | ⟨open_, longer⟩ := spanQuoted_passes quote blank t
    · rw [closed]
      exact map_visible_splitLexemes_cons depth _ ih
    · rw [open_, longer, lex, splitLexemes_singleton depth (by simp),
        splitLexemes_singleton depth (by simp)]
      exact congrArg ([·]) (visible_append_blank (c :: t) blank)
  | case4 c t no_comment quote ih =>
    have go_on : c = '/' → (t ++ b).head? ≠ some '*' := by
      intro slash
      cases t with
      | nil =>
        intro star
        have starts := List.mem_of_head? star
        exact absurd (isBlankText_iff.1 blank '*' starts) (by decide)
      | cons d t =>
        intro star
        exact no_comment t slash (by simpa using star)
    rw [List.cons_append, lex_char (by simpa using quote) go_on]
    exact map_visible_splitLexemes_cons depth _ ih

theorem splitSelectors_trim (list : Text) :
    (splitSelectors (trim list)).map visible = (splitSelectors list).map visible := by
  cases blank : isBlankText list with
  | true =>
    rw [trim_eq_nil_iff.2 blank]
    exact (splitLexemes_append_blank blank 0 []).symm
  | false =>
    have front : isBlankText (list.takeWhile isBlank) = true := isBlankText_takeWhile list
    conv_rhs => rw [← append_trim list blank]
    rw [splitSelectors, splitSelectors, splitLexemes_append_blank (isBlankText_drop_trimEnd list),
      lex_append_of_blank front, splitLexemes_blank front]
    have same := map_visible_prepend (t := []) (u := list.takeWhile isBlank)
      (visible_eq_nil_iff.2 front).symm (rfl : (splitLexemes 0 (lex (trim list))).map visible = _)
    rwa [prepend_nil (splitLexemes_ne_nil _ _)] at same

/-! ## Pieces -/

/-- A stretch of a text of CSS: a selector that gets the attribute, or other text. -/
inductive Piece where
  | plain (text : Text)
  | selector (text : Text)
deriving DecidableEq

namespace Piece

def text : Piece → Text
  | plain text => text
  | selector text => text

/-- The visible characters of a piece when it is scoped. -/
def marked (id : Text) : Piece → Text
  | plain text => visible text
  | selector text => visible (scopeAttribute id) ++ visible text

/-- What stands between two commas is a selector unless it is blank. -/
def ofCell (cell : Text) : Piece :=
  if isBlankText cell then plain cell else selector cell

/-- Pieces of a list, with the commas between them. -/
def ofCells (cells : List Text) : List Piece :=
  (cells.map ofCell).intersperse (plain [','])

@[simp] theorem text_ofCell (cell : Text) : (ofCell cell).text = cell := by
  unfold ofCell
  split <;> rfl

theorem flatMap_ofCells (f : Piece → Text) (cells : List Text) :
    (ofCells cells).flatMap f = join (f (plain [','])) (cells.map fun cell => f (ofCell cell)) := by
  unfold ofCells
  induction cells with
  | nil => rfl
  | cons first rest ih =>
    cases rest with
    | nil => simp [join]
    | cons second rest =>
      simp only [List.map_cons] at ih ⊢
      rw [List.intersperse_cons_cons, List.flatMap_cons, List.flatMap_cons, ih, join_cons_cons,
        List.append_assoc]

end Piece

/-- The pieces of the text in front of an opening brace: its selectors, if it is scoped. -/
def Opening.pieces (o : Opening) : List Piece :=
  if o.isRule && holdsRules o.around then Piece.ofCells (splitSelectors o.prelude)
  else [.plain o.prelude]

def Part.pieces : Part → List Piece
  | kept text => [.plain text]
  | opening o => o.pieces ++ [.plain ['\x7b']]

def pieces (css : Text) : List Piece :=
  (cut css).flatMap Part.pieces

theorem Opening.text_pieces (o : Opening) : o.pieces.flatMap Piece.text = o.prelude := by
  unfold Opening.pieces
  split
  · rw [Piece.flatMap_ofCells]
    simp only [Piece.text_ofCell, List.map_id']
    exact join_splitSelectors o.prelude
  · simp [Piece.text]

theorem Part.text_pieces (p : Part) : p.pieces.flatMap Piece.text = p.text := by
  cases p with
  | kept text => simp [Part.pieces, Part.text, Piece.text]
  | opening o => simp [Part.pieces, Part.text, Piece.text, o.text_pieces]

theorem text_pieces (css : Text) : (pieces css).flatMap Piece.text = css := by
  conv_rhs => rw [← text_cut css]
  rw [pieces, List.flatMap_assoc]
  simp only [Part.text_pieces]

/-! ## What scoping adds -/

theorem Piece.marked_ofCell (id cell : Text) :
    (ofCell cell).marked id =
      if visible cell = [] then [] else visible (scopeAttribute id) ++ visible cell := by
  unfold ofCell
  cases blank : isBlankText cell with
  | true => simp [marked, visible_eq_nil_iff.2 blank]
  | false => simp [marked, visible_eq_nil_iff, blank]

theorem visible_scopeSelector (id cell : Text) :
    visible (scopeSelector (scopeAttribute id) (trim cell)) = (Piece.ofCell cell).marked id := by
  rw [Piece.marked_ofCell, ← visible_trim cell]
  unfold scopeSelector
  split
  · rename_i empty
    simp [empty]
  · rename_i rest starts
    have some : visible (trim cell) ≠ [] := by
      have colon : isBlank ':' = false := by decide
      simp [starts, visible, colon]
    rw [if_neg some, visible_append]
  · rename_i other _
    have some : visible (trim cell) ≠ [] := by
      rw [ne_eq, visible_eq_nil_iff]
      intro blank
      exact other (eq_nil_of_isBlankText_trim blank)
    have space : visible " " = [] := by decide
    rw [if_neg some, visible_append, visible_append, space, List.append_nil]

/-- Scoping a list of selectors puts the attribute in front of each of them. -/
theorem visible_scopeSelectors (id : Text) {list : Text} (shown : isBlankText list = false) :
    visible (scopeSelectors id list) =
      (Piece.ofCells (splitSelectors list)).flatMap (Piece.marked id) := by
  have some : (trim list).isEmpty = false := by
    simp [trim_eq_nil_iff, shown]
  have separator : visible ", " = Piece.marked id (.plain [',']) := by
    rw [Piece.marked]
    decide
  have inner : visible (join ", " ((splitSelectors (trim list)).map fun s =>
      scopeSelector (scopeAttribute id) (trim s))) =
      (Piece.ofCells (splitSelectors list)).flatMap (Piece.marked id) := by
    rw [visible_join, Piece.flatMap_ofCells, separator, List.map_map]
    congr 1
    have marks (cells : List Text) : cells.map (fun cell => (Piece.ofCell cell).marked id) =
        (cells.map visible).map fun shown =>
          if shown = [] then [] else visible (scopeAttribute id) ++ shown := by
      rw [List.map_map]
      exact List.map_congr_left fun cell _ => Piece.marked_ofCell id cell
    calc (splitSelectors (trim list)).map
          (visible ∘ fun s => scopeSelector (scopeAttribute id) (trim s))
        = (splitSelectors (trim list)).map fun cell => (Piece.ofCell cell).marked id :=
          List.map_congr_left fun cell _ => visible_scopeSelector id cell
      _ = (splitSelectors list).map fun cell => (Piece.ofCell cell).marked id := by
          rw [marks, marks, splitSelectors_trim]
  simp only [scopeSelectors, some, Bool.false_eq_true, if_false]
  rw [visible_append_blank _ (isBlankText_drop_trimEnd list), visible_append,
    visible_eq_nil_iff.2 (isBlankText_takeWhile list), List.nil_append, inner]

theorem Opening.visible_written (id : Text) (o : Opening) :
    visible (o.written id) = o.pieces.flatMap (Piece.marked id) := by
  unfold Opening.written Opening.pieces
  cases changes : o.isRule && holdsRules o.around with
  | false => simp [Piece.marked]
  | true =>
    have shown : isBlankText o.prelude = false := by
      have rule := (Bool.and_eq_true_iff.1 changes).1
      rw [Opening.isRule] at rule
      simpa using (Bool.and_eq_true_iff.1 rule).1
    simpa using visible_scopeSelectors id shown

theorem Part.visible_written (id : Text) (p : Part) :
    visible (p.written id) = p.pieces.flatMap (Piece.marked id) := by
  cases p with
  | kept text => simp [Part.pieces, Part.written, Piece.marked]
  | opening o => simp [Part.pieces, Part.written, Piece.marked, o.visible_written]

/-- A text is made of pieces, and scoping it puts the attribute in front of every piece that is a
selector and nowhere else; blanks apart, all else stays. The selectors are what stands, and is not
blank, between the commas outside brackets of the lists that scoping changes. -/
theorem visible_scope (id css : Text) :
    (pieces css).flatMap Piece.text = css ∧
      visible (scope id css) = (pieces css).flatMap (Piece.marked id) ∧
      scope id css = (cut css).flatMap (Part.written id) ∧
      ∀ o ∈ openings css,
        (o.written id = o.prelude → o.pieces = [.plain o.prelude]) ∧
          (o.written id ≠ o.prelude → ∃ cells, CutAtCommas (lex o.prelude) cells ∧
            o.pieces = Piece.ofCells (cells.map spell)) := by
  refine ⟨text_pieces css, ?_, scope_eq_cut id css, fun o _ => ⟨?_, ?_⟩⟩
  · rw [scope_eq_cut, visible_flatMap, pieces, List.flatMap_assoc]
    simp only [Part.visible_written]
  · intro same
    have plain : ¬ (o.isRule && holdsRules o.around) = true := by
      rw [Bool.and_eq_true_iff, ← written_ne_iff id o]
      exact not_not_intro same
    rw [Opening.pieces, if_neg plain]
  · intro changed
    obtain ⟨cells, cut, texts⟩ := exists_cutAtCommas o.prelude
    refine ⟨cells, cut, ?_⟩
    rw [Opening.pieces, if_pos (Bool.and_eq_true_iff.2 ((written_ne_iff id o).1 changed)), texts]

/-- A list with a comma in brackets, one in a comment and a place that is blank, in an at-rule that is
left open. -/
theorem visible_scope_print :
    visible (scope "t" "@media print\x7b a:is(b, c),,/*,*/ d\x7b\x7d") =
        "@mediaprint\x7b[data-tom=\"t\"]a:is(b,c),,[data-tom=\"t\"]/*,*/d\x7b\x7d" ∧
      ∃ o ∈ openings "@media print\x7b a:is(b, c),,/*,*/ d\x7b\x7d",
        o.written "t" ≠ o.prelude ∧ ∃ cells, CutAtCommas (lex o.prelude) cells ∧
          o.pieces = Piece.ofCells (cells.map spell) := by
  obtain ⟨-, shown, -, lists⟩ :=
    visible_scope "t" "@media print\x7b a:is(b, c),,/*,*/ d\x7b\x7d"
  refine ⟨shown.trans (by decide +kernel), ⟨[.group], " a:is(b, c),,/*,*/ d"⟩, by decide +kernel,
    by decide +kernel, ?_⟩
  exact (lists _ (by decide +kernel)).2 (by decide +kernel)

end Stylesheet.Css
