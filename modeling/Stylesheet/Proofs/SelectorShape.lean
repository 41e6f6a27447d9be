import Stylesheet.Proofs.Sections
import Stylesheet.Proofs.TextTokens
import Stylesheet.Proofs.Trim

/-!
# What the selectors of a sheet look like

Headers of style rules are checked when a source is read, and nested blocks have one of a few names.
So every selector of a sheet is in one piece: no blank, comma or semicolon stands in it.

* `wellNamed_parse`: all headers that a document keeps have passed the check;
* `isCompound_of_mem`: the selector of every block of a sheet is in one piece.
-/

namespace Stylesheet

open Text

def isSelectorChar (c : Char) : Bool :=
  Source.isAttributeChar c || c == '.' || c == '#' || c == '[' || c == ']' || c == ':'

theorem isBlank_eq_false_of_isSelectorChar {c : Char} (h : isSelectorChar c = true) :
    isBlank c = false := by
  simp only [isSelectorChar, Source.isAttributeChar, Bool.or_eq_true, beq_iff_eq, or_assoc] at h
  rcases h with name | rfl | rfl | rfl | rfl | rfl | rfl | rfl | rfl
  · exact isBlank_eq_false_of_isNameChar name
  all_goals decide

/-- A selector in one piece: something stands in it, it does not start with a pseudo-class, and all
its characters are those of selectors. -/
structure IsCompound (t : Text) : Prop where
  ne_nil : t ≠ []
  not_pseudo : t.head? ≠ some ':'
  chars : ∀ c ∈ t, isSelectorChar c = true

namespace IsCompound

variable {t : Text}

theorem not_mem (h : IsCompound t) {c : Char} (other : isSelectorChar c = false) : c ∉ t := by
  intro hc
  simp [h.chars c hc] at other

theorem isBlank_eq_false (h : IsCompound t) {c : Char} (hc : c ∈ t) : isBlank c = false :=
  isBlank_eq_false_of_isSelectorChar (h.chars c hc)

theorem isBlankText_eq_false (h : IsCompound t) : isBlankText t = false := by
  obtain ⟨c, rest, rfl⟩ := List.exists_cons_of_ne_nil h.ne_nil
  simp [isBlankText, h.isBlank_eq_false List.mem_cons_self]

theorem trim_eq_self (h : IsCompound t) : trim t = t :=
  Text.trim_eq_self (fun _ hc => h.isBlank_eq_false (List.mem_of_mem_head? hc))
    (fun _ hc => h.isBlank_eq_false (List.mem_of_mem_getLast? hc))

theorem trimStart_concat (h : IsCompound t) : trimStart (t ++ [' ']) = t ++ [' '] := by
  refine trimStart_eq_self fun c hc => ?_
  rw [List.head?_append_of_ne_nil t h.ne_nil] at hc
  exact h.isBlank_eq_false (List.mem_of_mem_head? hc)

theorem append (h : IsCompound t) {u : Text} (chars : ∀ c ∈ u, isSelectorChar c = true) :
    IsCompound (t ++ u) where
  ne_nil := by simp [h.ne_nil]
  not_pseudo := by
    rw [List.head?_append_of_ne_nil t h.ne_nil]
    exact h.not_pseudo
  chars c hc := (List.mem_append.1 hc).elim (h.chars c) (chars c)

end IsCompound

namespace Source

theorem takeName?_eq_some {t name rest : Text} (h : takeName? t = some (name, rest)) :
    t = name ++ rest ∧ name ≠ [] ∧ ∀ c ∈ name, isNameChar c = true := by
  unfold takeName? at h
  split at h
  · cases h
  · rename_i some
    obtain ⟨rfl, rfl⟩ := Prod.mk.inj (Option.some.inj h)
    exact ⟨List.takeWhile_append_dropWhile.symm, some, List.all_eq_true.1 List.all_takeWhile⟩

theorem chars_of_isAttribute {t : Text} (h : isAttribute t = true) :
    ∀ c ∈ t, isSelectorChar c = true := by
  unfold isAttribute at h
  split at h
  · simp
  · rename_i rest
    simp only [Bool.and_eq_true, beq_iff_eq] at h
    have inner : ∀ c ∈ rest.takeWhile isAttributeChar, isSelectorChar c = true := by
      intro c hc
      simp [isSelectorChar, List.all_eq_true.1 List.all_takeWhile c hc]
    rw [← List.takeWhile_append_dropWhile (p := isAttributeChar) (l := rest), h.2]
    simp only [List.mem_cons, List.mem_append, List.not_mem_nil, or_false]
    rintro c (rfl | hc | rfl)
    · decide
    · exact inner c hc
    · decide
  · cases h

theorem isCompound_of_named {body name rest : Text} (taken : takeName? body = some (name, rest))
    (behind : isAttribute rest = true) : IsCompound body := by
  obtain ⟨rfl, ne_nil, chars⟩ := takeName?_eq_some taken
  have front : IsCompound name := by
    refine ⟨ne_nil, ?_, fun c hc => by simp [isSelectorChar, isAttributeChar, chars c hc]⟩
    intro colon
    have name_char := chars ':' (List.mem_of_mem_head? colon)
    revert name_char
    decide
  exact front.append (chars_of_isAttribute behind)

theorem isCompound_of_marked {c : Char} {rest : Text} (mark : c = '.' ∨ c = '#')
    (h : IsCompound rest) : IsCompound (c :: rest) := by
  refine ⟨by simp, by rcases mark with rfl | rfl <;> simp, ?_⟩
  intro d hd
  rcases List.mem_cons.1 hd with rfl | hd
  · rcases mark with rfl | rfl <;> decide
  · exact h.chars d hd

theorem isCompound_of_isSelector {t : Text} (h : isSelector t = true) : IsCompound t := by
  simp only [isSelector] at h
  -- What follows a mark is read like a selector that has none.
  split at h
  · rename_i taken
    have body := isCompound_of_named taken h
    split at body
    · exact isCompound_of_marked (.inl rfl) body
    · exact isCompound_of_marked (.inr rfl) body
    · exact body
  · cases h

/-- The style rules of a document have selectors as headers, and their nested blocks have the names
of nested blocks. -/
def WellNamed (d : Document) : Prop :=
  ∀ style ∈ d.styles.entries, isSelector style.1 = true ∧
    ∀ nested ∈ style.2.nested.entries, nested.1 ∈ nestedBlocks

theorem nested_blockOf {lines : List Text} {nested : Text × List Text}
    (h : nested ∈ (blockOf lines).nested.entries) : nested.1 ∈ nestedBlocks := by
  rcases Table.mem_insertAll h with part | none
  · obtain ⟨line, -, opens⟩ := mem_parts part
    simpa using (Option.filter_eq_some_iff.1 opens).2
  · cases none

theorem header?_of_rootHeader? {line : Text} {h : Header} (opens : rootHeader? line = some h) :
    header? (trim line) = some h := by
  unfold rootHeader? form at opens
  split at opens
  · rename_i found
    simp only at found
    split_ifs at found
    split at found
    · rename_i header
      rw [header, ← opens, Form.header.inj found]
    · cases found
  · cases opens

theorem isSelector_of_header? {content selector : Text}
    (h : header? content = some (.style selector)) : isSelector selector = true := by
  unfold header? at h
  split at h
  · cases h
  · split at h
    · cases h
    · obtain ⟨found, some, same⟩ := Option.map_eq_some_iff.1 h
      rw [← Header.style.inj same]
      exact (Option.filter_eq_some_iff.1 some).2

theorem WellNamed.extend {d : Document} (h : WellNamed d) {part : Header × List Text}
    (header : ∀ selector, part.1 = .style selector → isSelector selector = true) :
    WellNamed (extend d part) := by
  obtain ⟨head, owned⟩ := part
  cases head with
  | tokens category => exact h
  | component name => exact h
  | style selector =>
    intro style hs
    rcases Table.mem_assign hs with rfl | known
    · exact ⟨header selector rfl, fun nested hn => nested_blockOf hn⟩
    · exact h style known

theorem wellNamed_parse (source : Text) : WellNamed (parse source) := by
  have headers : ∀ part ∈ parts rootHeader? (lines source),
      ∀ selector, part.1 = .style selector → isSelector selector = true := by
    intro part hp selector style
    obtain ⟨line, -, opens⟩ := mem_parts hp
    exact isSelector_of_header? (header?_of_rootHeader? (opens.trans (by rw [style])))
  -- Sections are added one by one, and only those of style rules add styles.
  rw [parse, run_sections,
    run_before_header (none_of_mem_takeWhile rootHeader? (lines source))]
  refine List.foldlRecOn _ extend ?_ fun d hd part hp => hd.extend (headers part hp)
  intro style none
  cases none

end Source

namespace Sheet

open Source

theorem isCompound_formatSelector {selector : Text} (h : IsCompound selector) :
    IsCompound (formatSelector selector) := by
  unfold formatSelector
  split
  · exact h
  · refine ⟨by simp, by simp, ?_⟩
    intro c hc
    rcases List.mem_append.1 hc with mark | hc
    · obtain rfl : c = '.' := by simpa using mark
      decide
    · exact h.chars c hc

/-- Where a block of a sheet comes from: its selector is that of a style rule, alone or with a
pseudo-class behind it. -/
def Rule.StandsFor (d : Document) (r : Rule) : Prop :=
  ∃ style ∈ d.styles.entries, r.selector = formatSelector style.1 ∨
    ∃ nested ∈ style.2.nested.entries, nested.1.head? ≠ some '@' ∧
      r.selector = formatSelector style.1 ++ ":" ++ nested.1

theorem eq_of_mem_block {width : Option Text} {selector : Text} {ds : List Declaration} {r : Rule}
    (h : r ∈ block width selector ds) : r.selector = selector := by
  unfold block at h
  split at h
  · cases h
  · rw [List.mem_singleton.1 h]

theorem selector_of_mem_ofNested {tables : Token.Tables} {components : Table Block}
    {selector : Text} {nested : Text × List Text} {s : Sheet}
    (h : ofNested tables components selector nested = .ok s) {r : Rule} (hr : r ∈ s) :
    r.selector = selector ∨
      (nested.1.head? ≠ some '@' ∧ r.selector = selector ++ ":" ++ nested.1) := by
  unfold ofNested at h
  split at h
  · obtain ⟨ds, -, done⟩ := bind_ok.1 h
    rw [← Except.ok.inj done] at hr
    exact .inl (eq_of_mem_block hr)
  · rename_i name lines pseudo
    obtain ⟨ds, -, done⟩ := bind_ok.1 h
    rw [← Except.ok.inj done] at hr
    refine .inr ⟨?_, eq_of_mem_block hr⟩
    cases name with
    | nil => simp
    | cons c name =>
      intro sign
      obtain rfl : c = '@' := by simpa using sign
      exact pseudo name rfl

theorem standsFor_of_mem {overrides : Option Token.Tables} {d : Document} {s : Sheet}
    (h : ofDocument overrides d = .ok s) {r : Rule} (hr : r ∈ s) : r.StandsFor d := by
  obtain ⟨ss, styles, done⟩ := bind_ok.1 h
  rw [← Except.ok.inj done] at hr
  obtain ⟨rules, hs, hr⟩ := List.mem_flatten.1 hr
  obtain ⟨style, listed, made⟩ := mem_of_mapM_ok styles hs
  obtain ⟨ds, -, made⟩ := bind_ok.1 made
  obtain ⟨ns, blocks, made⟩ := bind_ok.1 made
  rw [← Except.ok.inj made] at hr
  refine ⟨style, listed, ?_⟩
  rcases List.mem_append.1 hr with own | inner
  · exact .inl (eq_of_mem_block own)
  · obtain ⟨rules, hn, hr⟩ := List.mem_flatten.1 inner
    obtain ⟨nested, held, made⟩ := mem_of_mapM_ok blocks hn
    exact (selector_of_mem_ofNested made hr).imp_right fun pseudo => ⟨nested, held, pseudo⟩

theorem chars_of_pseudoClass {name : Text} (listed : name ∈ nestedBlocks)
    (pseudo : name.head? ≠ some '@') : ∀ c ∈ ":" ++ name, isSelectorChar c = true := by
  have all : ∀ name ∈ nestedBlocks, name.head? = some '@' ∨
      (":" ++ name).all isSelectorChar = true := by decide +kernel
  exact List.all_eq_true.1 ((all name listed).resolve_left pseudo)

theorem isCompound_of_mem {overrides : Option Token.Tables} {d : Document} (named : WellNamed d)
    {s : Sheet} (h : ofDocument overrides d = .ok s) {r : Rule} (hr : r ∈ s) :
    IsCompound r.selector := by
  obtain ⟨style, listed, form⟩ := standsFor_of_mem h hr
  obtain ⟨selector, blocks⟩ := named style listed
  have own := isCompound_formatSelector (isCompound_of_isSelector selector)
  rcases form with same | ⟨nested, held, pseudo, same⟩
  · rw [same]
    exact own
  · rw [same, List.append_assoc]
    exact own.append (chars_of_pseudoClass (blocks nested held) pseudo)

end Sheet

end Stylesheet
