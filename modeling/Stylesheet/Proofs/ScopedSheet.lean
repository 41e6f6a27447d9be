import Stylesheet.Compile
import Stylesheet.Proofs.SelectorShape
import Stylesheet.Proofs.SilentLines
import Stylesheet.Proofs.StyleTree

/-!
# Scoping a compiled sheet

Compiling writes a sheet as text, and scoping reads the text again without knowing where it came
from. If no selector, declaration or width in the sheet leaves a string open, starts a comment or has
a brace of its own, scoping finds every block of the sheet where it was written.

* `isClosed`: what a part of the sheet must not do;
* `rewrites_render`: what becomes of the text of a block;
* `scope_render`: scoping the text of a sheet is writing the sheet with scoped selectors.
-/

namespace Stylesheet

open Text Css

namespace Css

def Lexeme.isComment : Lexeme → Bool
  | .comment _ => true
  | _ => false

/-- Whether a text leaves what is around it alone: read by itself, it ends outside any string, and
no comment starts and no brace stands outside its strings. -/
def isClosed (t : Text) : Bool :=
  (lex t).all fun l => l.isInner && !l.isComment

/-- Whether a text is closed and has no semicolon outside its strings. -/
def isClosedPrelude (t : Text) : Bool :=
  isClosed t && !(lex t).contains (.char ';')

theorem isBody_of_isClosed {t : Text} (h : isClosed t = true) : isBody t = true := by
  rw [isClosed, List.all_eq_true] at h
  refine List.all_eq_true.2 fun l hl => ?_
  exact (Bool.and_eq_true _ _ ▸ h l hl).1

theorem isPrelude_of_isClosed {t : Text} (h : isClosed t = true) (open_ : .char ';' ∉ lex t) :
    isPrelude t = true := by
  have inner := List.all_eq_true.1 (isBody_of_isClosed h)
  refine List.all_eq_true.2 fun l hl => ?_
  have other : l ≠ .char ';' := fun same => open_ (same ▸ hl)
  simp [inner l hl, other]

theorem isPrelude_append {t u : Text} (ht : isPrelude t = true) (hu : isPrelude u = true)
    (apart : u.head? ≠ some '*') : isPrelude (t ++ u) = true := by
  rw [isPrelude, lex_append (complete_of_isBody (isBody_of_isPrelude ht)) apart, List.all_append,
    Bool.and_eq_true]
  exact ⟨ht, hu⟩

theorem isBody_append_of_blank {b t : Text} (blank : isBlankText b = true) (body : isBody t = true) :
    isBody (b ++ t) = true := by
  -- Blanks are lexemes of their own, so nothing needs to be known of the front of `t`.
  rw [isBody, lex_append_of_blank blank, List.all_append, Bool.and_eq_true, List.all_map]
  refine ⟨List.all_eq_true.2 fun c hc => ?_, body⟩
  obtain ⟨no_open, no_close, -⟩ := not_delimiter_of_isBlank (isBlankText_iff.1 blank c hc)
  simp [Lexeme.isInner, Lexeme.isComplete, no_open, no_close]

/-- A text that can stand behind any part of a body. -/
def IsInset (t : Text) : Prop :=
  isBody t = true ∧ t.head? ≠ some '*'

theorem IsInset.append {t u : Text} (ht : IsInset t) (hu : IsInset u) : IsInset (t ++ u) := by
  refine ⟨isBody_append ht.1 hu.1 hu.2, ?_⟩
  cases t with
  | nil => exact hu.2
  | cons c t => exact ht.2

theorem isInset_of_blank {b : Text} (blank : isBlankText b = true) : IsInset b := by
  refine ⟨by simpa using isBody_append_of_blank blank (t := []) (by simp [isBody, lex]), ?_⟩
  intro star
  have shown := isBlankText_iff.1 blank '*' (List.mem_of_mem_head? star)
  revert shown
  decide

theorem isInset_join {separator : Text} (hs : IsInset separator) {pieces : List Text}
    (h : ∀ p ∈ pieces, IsInset p) : IsInset (join separator pieces) := by
  induction pieces with
  | nil => exact isInset_of_blank rfl
  | cons first rest ih =>
    have others := ih fun p hp => h p (List.mem_cons_of_mem first hp)
    cases rest with
    | nil =>
      rw [join, List.intercalate_singleton]
      exact h first List.mem_cons_self
    | cons second rest =>
      rw [join_cons_cons]
      exact ((h first List.mem_cons_self).append hs).append others

theorem splitLexemes_of_no_comma {ls : List Lexeme} (h : .char ',' ∉ ls) (depth : Nat) :
    splitLexemes depth ls = [spell ls] := by
  induction ls generalizing depth with
  | nil => rfl
  | cons l ls ih =>
    obtain ⟨first, others⟩ := not_or.1 (fun hl => h (List.mem_cons.2 hl))
    have apart : ¬(l = .char ',' ∧ depth = 0) := fun both => first both.1.symm
    rw [splitLexemes, if_neg apart, ih others, prepend, spell_cons]

theorem splitSelectors_compound {t : Text} (h : IsCompound t) : splitSelectors t = [t] := by
  have comma : .char ',' ∉ lex t := by
    intro hc
    exact h.not_mem (by decide +kernel) (mem_of_char_mem_lex hc)
  rw [splitSelectors, splitLexemes_of_no_comma comma, spell_lex]

theorem scopeSelector_compound (mark : Text) {t : Text} (h : IsCompound t) :
    scopeSelector mark t = mark ++ " " ++ t := by
  unfold scopeSelector
  split
  · exact absurd rfl h.ne_nil
  · exact absurd rfl h.not_pseudo
  · rfl

/-- A selector in one piece is scoped by putting the attribute in front of it. -/
theorem scopeSelectors_compound (id : Text) {t : Text} (h : IsCompound t) :
    scopeSelectors id (t ++ [' ']) = scopeAttribute id ++ " " ++ t ++ [' '] := by
  obtain ⟨c, rest, split⟩ := List.exists_cons_of_ne_nil h.ne_nil
  have shown : isBlank c = false := h.isBlank_eq_false (by simp [split])
  have last : ∀ c ∈ t.getLast?, isBlank c = false :=
    fun c hc => h.isBlank_eq_false (List.mem_of_mem_getLast? hc)
  have back : trimEnd (t ++ [' ']) = t := by
    rw [trimEnd_concat_of_blank t (by decide), trimEnd_eq_self last]
  have body : trim (t ++ [' ']) = t := by rw [trim, h.trimStart_concat, back]
  have front : (t ++ [' ']).takeWhile isBlank = [] := by simp [split, shown]
  have some : t.isEmpty = false := by simp [h.ne_nil]
  simp [scopeSelectors, body, some, front, back, splitSelectors_compound h, h.trim_eq_self,
    scopeSelector_compound _ h, join]

theorem leads_compound {t : Text} (h : IsCompound t) {c : Char} (other : isSelectorChar c = false)
    (front : Text) : leads (c :: front) (trimStart (t ++ [' '])) = false := by
  rw [h.trimStart_concat]
  refine leads_eq_false_of_head? front ?_
  rw [List.head?_append_of_ne_nil t h.ne_nil]
  exact fun same => h.not_mem other (List.mem_of_mem_head? same)

/-- A block with one selector is written with the attribute in front of it. -/
theorem rewrites_compound (id : Text) {stack : List BlockKind} (rules : holdsRules stack = true)
    {t body : Text} (compound : IsCompound t) (closed : isClosed t = true)
    (inner : isBody body = true) :
    Rewrites id stack (braced (t ++ [' ']) body)
      (braced (scopeAttribute id ++ " " ++ t ++ [' ']) body) := by
  have opening : isPrelude (t ++ [' ']) = true := by
    refine isPrelude_append (isPrelude_of_isClosed closed ?_) (by decide +kernel) (by simp)
    exact fun end_ => compound.not_mem (by decide +kernel) (mem_of_char_mem_lex end_)
  have shown : isBlankText (t ++ [' ']) = false := by
    rw [isBlankText_append, compound.isBlankText_eq_false, Bool.false_and]
  refine .block opening (leads_compound compound (by decide +kernel) _) (fun b blank => ?_)
    (.body id (.declarations :: stack) inner)
  rw [openBlock_style rules shown (leads_compound compound (by decide +kernel) _) blank,
    scopeSelectors_compound id compound]

theorem rewrites_join (id : Text) {α : Type} (f g : α → Text) {xs : List α}
    (h : ∀ x ∈ xs, Rewrites id [] (f x) (g x)) {separator : Text}
    (blank : isBlankText separator = true) :
    Rewrites id [] (join separator (xs.map f)) (join separator (xs.map g)) := by
  induction xs with
  | nil => exact .nil
  | cons x xs ih =>
    have first := h x List.mem_cons_self
    have others := ih fun y hy => h y (List.mem_cons_of_mem x hy)
    cases xs with
    | nil => simpa [join] using first
    | cons y xs =>
      simp only [List.map_cons, join_cons_cons] at others ⊢
      exact (first.append (.blank blank)).append others

end Css

namespace Sheet

/-- The block with a scope attribute in front of its selector. -/
def Rule.within (id : Text) (r : Rule) : Rule :=
  { r with selector := scopeAttribute id ++ " " ++ r.selector }

/-- What stands between the braces of a block. -/
def inner (indent : Text) (ds : List Declaration) : Text :=
  "\n" ++ join "\n" (ds.map fun d => indent ++ "  " ++ d.render) ++ "\n" ++ indent

theorem renderBlock_eq (indent selector : Text) (ds : List Declaration) :
    renderBlock indent selector ds = indent ++ braced (selector ++ [' ']) (inner indent ds) := by
  simp [renderBlock, braced, inner]

/-- The opening of a block that applies up to a width. -/
def media (width : Text) : Text :=
  "@media (max-width: " ++ width ++ ") "

theorem render_media {r : Rule} {width : Text} (h : r.width = some width) :
    r.render = braced (media width) ("\n" ++ renderBlock "  " r.selector r.declarations ++ "\n") := by
  have written : r.render = "@media (max-width: " ++ width ++ ") \x7b\n" ++
      renderBlock "  " r.selector r.declarations ++ "\n\x7d" := by
    rw [Rule.render, h]
  have layout (front block : Text) : front ++ width ++ ") \x7b\n" ++ block ++ "\n\x7d" =
      braced (front ++ width ++ ") ") ("\n" ++ block ++ "\n") := by
    simp [braced]
  rw [written]
  exact layout _ _

theorem isBody_inner {indent : Text} (blank : isBlankText indent = true) {ds : List Declaration}
    (closed : ∀ d ∈ ds, isClosed d.render = true) : isBody (inner indent ds) = true := by
  have newline : IsInset "\n" := isInset_of_blank (by decide)
  have indented : ∀ p ∈ ds.map fun d => indent ++ "  " ++ d.render, IsInset p := by
    intro p hp
    obtain ⟨d, hd, rfl⟩ := List.mem_map.1 hp
    have front : isBlankText (indent ++ "  ") = true := by
      rw [isBlankText_append, blank]
      decide
    refine ⟨isBody_append_of_blank front (isBody_of_isClosed (closed d hd)), ?_⟩
    rw [List.head?_append_of_ne_nil _ (by simp)]
    exact (isInset_of_blank front).2
  exact (((newline.append (isInset_join newline indented)).append newline).append
    (isInset_of_blank blank)).1

theorem media_eq (width : Text) : media width = "@media (max-width: " ++ (width ++ ") ") :=
  List.append_assoc _ _ _

theorem head?_media (width : Text) : (media width).head? = some '@' := rfl

theorem trimStart_media (width : Text) : trimStart (media width) = media width := by
  refine trimStart_eq_self fun c hc => ?_
  obtain rfl : '@' = c := Option.some.inj ((head?_media width).symm.trans hc)
  decide

theorem isAtRule_media {width : Text} (closed : isClosedPrelude width = true) :
    IsAtRule (media width) := by
  obtain ⟨closed, open_⟩ : isClosed width = true ∧ .char ';' ∉ lex width := by
    simpa [isClosedPrelude] using closed
  have back : isPrelude (width ++ ") ") = true :=
    isPrelude_append (isPrelude_of_isClosed closed open_) (by decide +kernel) (by decide)
  constructor
  -- The width may start with a star, which the blank in front of it keeps from opening a comment.
  · rw [media_eq, isPrelude, lex_plain (by decide +kernel), List.all_append, Bool.and_eq_true]
    exact ⟨by decide +kernel, back⟩
  · rw [trimStart_media]
    exact leads_single_iff.2 (head?_media width)

theorem groups_media (width : Text) : groupingRules.any (leads · (atWord (media width))) = true := by
  have front : ("@media (max-width: " : Text) = "@media" ++ ' ' :: "(max-width: " := by decide +kernel
  have back : trimEnd ") " = ")" := by decide +kernel
  have trimmed : trim (media width) = "@media" ++ ' ' :: ("(max-width: " ++ width ++ ")") := by
    rw [trim, trimStart_media, media_eq, ← List.append_assoc, trimEnd_append _ (by decide), front,
      back]
    simp only [List.append_assoc, List.cons_append]
  have shown : ("@media" : Text).all (fun c => !isBlank c) = true := by decide +kernel
  have word : atWord (media width) = fold "@media" := by
    rw [atWord, trimmed, List.takeWhile_append_of_pos (List.all_eq_true.1 shown),
      List.takeWhile_cons_of_neg (by decide), List.append_nil]
  rw [word]
  decide +kernel

/-- The selector, the declarations and the width of a block leave what is around them alone. -/
structure Rule.IsClosed (r : Rule) : Prop where
  compound : IsCompound r.selector
  selector : isClosed r.selector = true
  declarations : ∀ d ∈ r.declarations, isClosed d.render = true
  width : ∀ w ∈ r.width, isClosedPrelude w = true

theorem rewrites_renderBlock (id : Text) {stack : List BlockKind} (rules : holdsRules stack = true)
    {indent : Text} (blank : isBlankText indent = true) {r : Rule} (h : r.IsClosed) :
    Rewrites id stack (renderBlock indent r.selector r.declarations)
      (renderBlock indent (r.within id).selector r.declarations) := by
  rw [renderBlock_eq, renderBlock_eq]
  exact Rewrites.append (.blank blank)
    (rewrites_compound id rules h.compound h.selector (isBody_inner blank h.declarations))

theorem rewrites_render (id : Text) {r : Rule} (h : r.IsClosed) :
    Rewrites id [] r.render (r.within id).render := by
  cases width : r.width with
  | none =>
    have within : (r.within id).width = none := width
    rw [Rule.render, Rule.render, width, within]
    exact rewrites_renderBlock id rfl rfl h
  | some w =>
    have within : (r.within id).width = some w := width
    have newline : Rewrites id [.group] "\n" "\n" := .blank (by decide)
    rw [render_media width, render_media within]
    refine rewrites_atRule id [] (isAtRule_media (h.width w width)) ?_
    -- The opening stays, and in a group the block inside is scoped like one at the top.
    rw [atRuleKind_group (groups_media w)]
    exact ((newline.append (rewrites_renderBlock id rfl (by decide) h)).append newline).inside

theorem isSolid_braced {opening : Text} {c : Char} (first : opening.head? = some c)
    (shown : isBlank c = false) (inside : Text) : IsSolid (braced opening inside) where
  ne_nil := by simp [braced]
  first := by
    intro d hd
    have same : (braced opening inside).head? = some c := by simp [braced, first]
    obtain rfl : c = d := Option.some.inj (same.symm.trans hd)
    exact shown
  last := by
    intro d hd
    rw [braced, List.getLast?_concat] at hd
    obtain rfl : '\x7d' = d := Option.some.inj hd
    decide

theorem isSolid_render {r : Rule} {c : Char} (first : r.selector.head? = some c)
    (shown : isBlank c = false) : IsSolid r.render := by
  cases width : r.width with
  | none =>
    have written : r.render = renderBlock [] r.selector r.declarations := by rw [Rule.render, width]
    rw [written, renderBlock_eq, List.nil_append]
    exact isSolid_braced (by simp [first]) shown _
  | some w =>
    rw [render_media width]
    exact isSolid_braced (head?_media w) (by decide) _

/-- Scoping the text of a sheet puts the attribute in front of the selector of every block and
changes nothing else. -/
theorem scope_render (id : Text) {s : Sheet} (h : ∀ r ∈ s, r.IsClosed) :
    scope id (render s) = render (s.map (Rule.within id)) := by
  -- Every block starts and ends with a visible character, so trimming changes neither text.
  have solid : ∀ p ∈ s.map Rule.render, IsSolid p := by
    intro p hp
    obtain ⟨r, hr, rfl⟩ := List.mem_map.1 hp
    have compound := (h r hr).compound
    obtain ⟨c, rest, split⟩ := List.exists_cons_of_ne_nil compound.ne_nil
    exact isSolid_render (c := c) (by simp [split]) (compound.isBlank_eq_false (by simp [split]))
  have scoped_solid : ∀ p ∈ (s.map (Rule.within id)).map Rule.render, IsSolid p := by
    intro p hp
    obtain ⟨r, hr, rfl⟩ := List.mem_map.1 hp
    obtain ⟨r, -, rfl⟩ := List.mem_map.1 hr
    exact isSolid_render (c := '[') rfl (by decide)
  rw [render, render, trim_join _ solid, trim_join _ scoped_solid]
  refine scope_of_rewrites (Rewrites.append ?_ (.blank (by decide)))
  rw [List.map_map]
  exact rewrites_join id _ _ (fun r hr => rewrites_render id (h r hr)) (by decide)

/-- The selector of a block is closed if that of its style rule is. -/
theorem isClosed_of_standsFor {d : Document} (named : Source.WellNamed d)
    (h : ∀ selector ∈ d.styles.keys, isClosed (formatSelector selector) = true) {r : Rule}
    (from_ : r.StandsFor d) : isClosed r.selector = true := by
  have pseudo : ∀ name ∈ Source.nestedBlocks, isClosed (":" ++ name) = true := by decide +kernel
  obtain ⟨style, listed, form⟩ := from_
  have own := h style.1 (List.mem_map.2 ⟨style, listed, rfl⟩)
  rcases form with same | ⟨nested, held, -, same⟩
  · rw [same]
    exact own
  · rw [same, List.append_assoc, isClosed,
      lex_append (complete_of_isBody (isBody_of_isClosed own)) (by simp), List.all_append,
      Bool.and_eq_true]
    exact ⟨own, pseudo nested.1 ((named style listed).2 nested held)⟩

end Sheet

open Sheet Token

/-- A source that compiles to closed parts is compiled to scoped CSS block by block: the result is
the text of the sheet in which the scope attribute stands in front of the selector of every block. -/
theorem scopedCss_compile (source id : Text) (overrides : Option Tables) (some_id : id ≠ [])
    (texts : ∀ tables, overrides = some tables → IsTextual tables)
    (selectors : ∀ selector ∈ (Source.parse source).styles.keys,
      isClosed (formatSelector selector) = true)
    (blocks : ∀ sheet, ofDocument overrides (Source.parse source) = .ok sheet → ∀ r ∈ sheet,
      (∀ d ∈ r.declarations, isClosed d.render = true) ∧ ∀ w ∈ r.width, isClosedPrelude w = true) :
    ∃ sheet compiled, ofDocument overrides (Source.parse source) = .ok sheet ∧
      compile { isScoped := true, scopeId := some id, overrides } source = .ok compiled ∧
      compiled.css = render sheet ∧
      compiled.scopedCss = render (sheet.map (Rule.within id)) := by
  have named := Source.wellNamed_parse source
  obtain ⟨sheet, found⟩ := ofDocument_ok texts (Source.parse source)
  have closed : ∀ r ∈ sheet, r.IsClosed := fun r hr =>
    { compound := isCompound_of_mem named found hr
      selector := isClosed_of_standsFor named selectors (standsFor_of_mem found hr)
      declarations := (blocks sheet found r hr).1
      width := (blocks sheet found r hr).2 }
  have given : Settings.idFor { isScoped := true, scopeId := some id, overrides } source = id := by
    obtain ⟨c, rest, rfl⟩ := List.exists_cons_of_ne_nil some_id
    rfl
  refine ⟨sheet, _, found, bind_ok.2 ⟨sheet, found, rfl⟩, rfl, ?_⟩
  show scope _ (render sheet) = _
  rw [given, scope_render id closed]

/-! ## A source with quoted braces -/

namespace Color

/-- A line in which no color without a hyphen is named is left as it is. -/
theorem substituteNames_eq_self {line : Text} {colors : List (Text × Value)}
    (h : ∀ c ∈ colors, c.1.contains '-' = true ∨ substitute line c.1 c.2 = .ok line) :
    substituteNames colors line = .ok line := by
  unfold substituteNames
  induction colors with
  | nil => rfl
  | cons c colors ih =>
    obtain ⟨name, value⟩ := c
    have kept : (if name.contains '-' then .ok line else substitute line name value) =
        Except.ok line := by
      rcases h (name, value) List.mem_cons_self with hyphen | same
      · rw [if_pos hyphen]
      · rw [same, ite_self]
    rw [List.foldlM_cons]
    simp only [kept]
    exact ih fun d hd => h d (List.mem_cons_of_mem _ hd)

theorem substitutePalette_eq_self {tables : Tables} {line : Text}
    (h : ∀ w, .word w ∈ pieces line → isPaletteName w = false) :
    substitutePalette tables line = .ok line := by
  have kept (ps : List Piece) (h : ∀ w, .word w ∈ ps → isPaletteName w = false) :
      ps.mapM (substitutePiece tables) = .ok (ps.map Piece.text) := by
    induction ps with
    | nil => rfl
    | cons p ps ih =>
      have first : substitutePiece tables p = .ok p.text := by
        cases p with
        | word w => simp [substitutePiece, h w List.mem_cons_self, Piece.text]
        | separator c => rfl
      rw [List.mapM_cons, first, ih fun w hw => h w (List.mem_cons_of_mem p hw)]
      rfl
  refine bind_ok.2 ⟨_, kept _ h, ?_⟩
  rw [flatten_pieces]
  rfl

end Color

namespace Sheet

theorem ofNested_width {tables : Tables} {components : Table Block} {selector name : Text}
    {lines : List Text} {ds : List Declaration}
    (found : declarations tables components lines = .ok ds) :
    ofNested tables components selector ('@' :: name, lines) =
      .ok (block (some (tables.show "breakpoints" name)) selector ds) :=
  bind_ok.2 ⟨ds, found, rfl⟩

theorem ofNested_pseudo {tables : Tables} {components : Table Block} {selector name : Text}
    {lines : List Text} {ds : List Declaration} (pseudo : name.head? ≠ some '@')
    (found : declarations tables components lines = .ok ds) :
    ofNested tables components selector (name, lines) =
      .ok (block none (selector ++ ":" ++ name) ds) := by
  have other : ∀ n, name = '@' :: n → False := by
    rintro n rfl
    exact pseudo rfl
  rw [ofNested.eq_2 _ _ _ _ _ other]
  exact bind_ok.2 ⟨ds, found, rfl⟩

end Sheet

/-- A source with a quote in its selector, and a brace in quotes in its lines. -/
def quoting : Text :=
  "a[x=\"y\"]:\n  hover:\n    content \"\x7d\"\n  @mobile:\n    content \"\x7d\"\n"

def quotingSelector : Text := "a[x=\"y\"]"

/-- The line that stands in both blocks of `quoting`. -/
def quotingLine : Text := "content \"\x7d\""

def quotingContent : Declaration := ⟨"content", "\"\x7d\""⟩

def quotingBlocks : List (Text × List Text) :=
  [("hover", [quotingLine]), ('@' :: "mobile", [quotingLine])]

def quotingDocument : Document where
  styles := .ofList [(quotingSelector, { nested := .ofList quotingBlocks })]

def quotingTables : Tables := tables none quotingDocument

def quotingSheet : Sheet :=
  [⟨none, "a[x=\"y\"]:hover", [quotingContent]⟩, ⟨some "640px", "a[x=\"y\"]", [quotingContent]⟩]

theorem parse_quoting : Source.parse quoting = quotingDocument := by decide +kernel

theorem resolve_quoting : Color.resolve quotingTables quotingLine = .ok quotingLine := by
  have built_in : quotingTables.get? "colors" = some (textTable colors) := rfl
  have unnamed : ∀ f ∈ colors, f.1.contains '-' = true ∨
      Color.replaceWhole f.1 f.2 false 0 quotingLine = quotingLine := by decide +kernel
  have pieces : Color.pieces quotingLine = [.word "content", .separator ' ', .separator '"',
      .separator '\x7d', .separator '"'] := by decide +kernel
  have unshaded : ∀ w, .word w ∈ Color.pieces quotingLine → Color.isPaletteName w = false := by
    intro w hw
    simp only [pieces, List.mem_cons, Color.Piece.word.injEq, reduceCtorEq, List.not_mem_nil,
      or_false] at hw
    rw [hw]
    decide +kernel
  refine bind_ok.2 ⟨quotingLine, Color.substituteNames_eq_self fun c hc => ?_,
    Color.substitutePalette_eq_self unshaded⟩
  rw [built_in] at hc
  obtain ⟨f, hf, rfl⟩ := mem_textTable hc
  exact (unnamed f hf).imp_right fun same => congrArg Except.ok same

theorem declarations_quoting (components : Table Block) :
    declarations quotingTables components [quotingLine] = .ok [quotingContent] := by
  have expanded : Shorthand.expand quotingTables quotingLine = .ok (some [quotingContent]) :=
    bind_ok.2 ⟨quotingLine, resolve_quoting, by decide +kernel⟩
  rw [declarations, Component.expand_eq_self _ _ (by decide +kernel), List.mapM_cons, expanded]
  rfl

theorem ofDocument_quoting : ofDocument none (Source.parse quoting) = .ok quotingSheet := by
  have entries : (Table.ofList quotingBlocks).entries = quotingBlocks := by decide +kernel
  have empty : declarations quotingTables quotingDocument.components [] = .ok [] := by
    rw [declarations, Component.expand_eq_self _ _ (by simp)]
    rfl
  have nested : quotingBlocks.mapM (ofNested quotingTables quotingDocument.components
      (formatSelector quotingSelector)) = .ok (quotingSheet.map ([·])) := by
    rw [quotingBlocks, List.mapM_cons, List.mapM_cons,
      ofNested_pseudo (by decide +kernel) (declarations_quoting _),
      ofNested_width (declarations_quoting _)]
    decide +kernel
  have style : ofStyle quotingTables quotingDocument.components
      (quotingSelector, { nested := .ofList quotingBlocks }) = .ok quotingSheet := by
    rw [← entries] at nested
    exact bind_ok.2 ⟨[], empty, bind_ok.2 ⟨_, nested, by decide +kernel⟩⟩
  rw [parse_quoting]
  refine bind_ok.2 ⟨[quotingSheet], ?_, by decide +kernel⟩
  show (ofStyle quotingTables _ _ >>= _) = _
  rw [style]
  rfl

/-- Scoping finds the blocks of `quoting` behind the quoted braces. -/
theorem scopedCss_quoting : ∃ compiled,
    compile { isScoped := true, scopeId := some "s1", overrides := none } quoting = .ok compiled ∧
      compiled.scopedCss = join "\n"
        ["[data-tom=\"s1\"] a[x=\"y\"]:hover \x7b", "  content: \"\x7d\";", "\x7d", "",
         "@media (max-width: 640px) \x7b", "  [data-tom=\"s1\"] a[x=\"y\"] \x7b",
         "    content: \"\x7d\";", "  \x7d", "\x7d", ""] := by
  have closed : ∀ r ∈ quotingSheet, (∀ d ∈ r.declarations, isClosed d.render = true) ∧
      ∀ w ∈ r.width, isClosedPrelude w = true := by decide +kernel
  have only (sheet : Sheet) (found : ofDocument none (Source.parse quoting) = .ok sheet) :
      quotingSheet = sheet := Except.ok.inj (ofDocument_quoting.symm.trans found)
  obtain ⟨sheet, compiled, found, done, -, css⟩ := scopedCss_compile quoting "s1" none (by decide)
    (by simp) (by rw [parse_quoting]; decide +kernel) fun sheet found => only sheet found ▸ closed
  obtain rfl := only sheet found
  refine ⟨compiled, done, css.trans ?_⟩
  decide +kernel

end Stylesheet
