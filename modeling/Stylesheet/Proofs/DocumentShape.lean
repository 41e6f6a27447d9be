import Stylesheet.Proofs.ColorWords
import Stylesheet.Proofs.SelectorShape

/-!
# The shape of documents

Reading never fails, but it does not store everything. What a document can hold is said here without
the reader: which names and selectors there are, and which lines a block can have.

* `SelectorForm`: selectors by their parts, with `isSelector_iff`;
* `Header.IsProper`: the headers that can be written, with `header?_isProper`;
* `Document.IsWellFormed`: documents with proper headers and lines that can be stored;
* `IsWellFormed.extend`: a section keeps a document well-formed;
* `isWellFormed_parse`: so every document that is read is well-formed.
-/

namespace Stylesheet

open Text
open Color (IsWord)

namespace Source

/-! ## Names and selectors -/

/-- The part of a selector in brackets, if there is one. -/
def AttributeForm (t : Text) : Prop :=
  t = [] ∨ ∃ inner : Text, t = '[' :: inner ++ [']'] ∧ inner ≠ [] ∧
    ∀ c ∈ inner, isAttributeChar c = true

/-- A selector: perhaps a mark, then a name, then perhaps an attribute in brackets. -/
def SelectorForm (t : Text) : Prop :=
  ∃ mark name behind : Text, t = mark ++ name ++ behind ∧
    mark ∈ ([[], ['.'], ['#']] : List Text) ∧ IsWord name ∧ AttributeForm behind

theorem takeName?_append {name rest : Text} (named : IsWord name)
    (border : ∀ c ∈ rest.head?, isNameChar c = false) : takeName? (name ++ rest) = some (name, rest) := by
  have taken : (name ++ rest).takeWhile isNameChar = name := by
    rw [List.takeWhile_append_of_pos named.letters]
    cases rest with
    | nil => simp
    | cons c rest => simp [border c rfl]
  have left : (name ++ rest).dropWhile isNameChar = rest := by
    rw [List.dropWhile_append_of_pos named.letters]
    cases rest with
    | nil => rfl
    | cons c rest => simp [border c rfl]
  obtain ⟨c, letters, rfl⟩ := List.exists_cons_of_ne_nil named.nonempty
  rw [takeName?, taken, left]

theorem isAttribute_iff {t : Text} : isAttribute t = true ↔ AttributeForm t := by
  have closed : isAttributeChar ']' = false := by decide
  constructor
  · intro h
    unfold isAttribute at h
    split at h
    · exact .inl rfl
    · rename_i rest
      obtain ⟨some, last⟩ := Bool.and_eq_true_iff.1 h
      refine .inr ⟨rest.takeWhile isAttributeChar, ?_, by simpa using some,
        List.all_eq_true.1 List.all_takeWhile⟩
      rw [List.cons_append, ← eq_of_beq last, List.takeWhile_append_dropWhile]
    · cases h
  · rintro (rfl | ⟨inner, rfl, some, chars⟩)
    · rfl
    · simp [isAttribute, List.takeWhile_append_of_pos chars, List.dropWhile_append_of_pos chars,
        closed, some]

theorem AttributeForm.border {t : Text} (h : AttributeForm t) :
    ∀ c ∈ t.head?, isNameChar c = false := by
  intro c hc
  rcases h with rfl | ⟨inner, rfl, -, -⟩
  · cases hc
  · obtain rfl : '[' = c := by simpa using hc
    decide

theorem isSelector_iff {t : Text} : isSelector t = true ↔ SelectorForm t := by
  constructor
  · intro h
    simp only [isSelector] at h
    split at h
    · rename_i name rest taken
      obtain ⟨body, some, letters⟩ := takeName?_eq_some taken
      have named : IsWord name := ⟨some, letters⟩
      -- What follows a mark is read like a selector that has none.
      split at body
      · exact ⟨['.'], name, rest, by simp [body], by simp, named, isAttribute_iff.1 h⟩
      · exact ⟨['#'], name, rest, by simp [body], by simp, named, isAttribute_iff.1 h⟩
      · exact ⟨[], name, rest, by simp [body], by simp, named, isAttribute_iff.1 h⟩
    · cases h
  · rintro ⟨mark, name, behind, rfl, marked, named, form⟩
    have body := takeName?_append named form.border
    simp only [List.mem_cons, List.not_mem_nil, or_false] at marked
    rcases marked with rfl | rfl | rfl
    · obtain ⟨c, letters, rfl⟩ := List.exists_cons_of_ne_nil named.nonempty
      have first : isNameChar c = true := named.letters c List.mem_cons_self
      have dot : c ≠ '.' := by rintro rfl; exact absurd first (by decide)
      have hash : c ≠ '#' := by rintro rfl; exact absurd first (by decide)
      rw [List.cons_append] at body
      simp [isSelector, dot, hash, body, isAttribute_iff.2 form]
    · simp [isSelector, body, isAttribute_iff.2 form]
    · simp [isSelector, body, isAttribute_iff.2 form]

/-! ## Headers -/

/-- A header that can be written: a category of tokens, a component with a name, or a style rule whose
selector is not read as a category. -/
def Header.IsProper : Header → Prop
  | tokens category => category ∈ tokenCategories
  | component name => IsWord name
  | style selector => SelectorForm selector ∧ selector ∉ tokenCategories

theorem isWord_of_componentName? {t name : Text} (h : componentName? t = some name) : IsWord name := by
  unfold componentName? at h
  split at h
  · cases h
  · split at h
    · rename_i taken
      obtain ⟨-, some, letters⟩ := takeName?_eq_some taken
      exact Option.some.inj h ▸ ⟨some, letters⟩
    · cases h

theorem isWord_of_componentHeader? {content name : Text} (h : componentHeader? content = some name) :
    IsWord name := by
  unfold componentHeader? at h
  split at h
  · exact isWord_of_componentName? h
  · obtain ⟨rest, -, h⟩ := Option.bind_eq_some_iff.1 h
    exact isWord_of_componentName? h

theorem header?_isProper {content : Text} {h : Header} (found : header? content = some h) :
    h.IsProper := by
  unfold header? at found
  split at found
  · rename_i category opens
    obtain rfl := Option.some.inj found
    simpa [Header.IsProper] using (Option.filter_eq_some_iff.1 opens).2
  · rename_i other
    split at found
    · rename_i name opens
      obtain rfl := Option.some.inj found
      exact isWord_of_componentHeader? opens
    · obtain ⟨selector, opens, rfl⟩ := Option.map_eq_some_iff.1 found
      obtain ⟨written, form⟩ := Option.filter_eq_some_iff.1 opens
      refine ⟨isSelector_iff.1 form, ?_⟩
      simpa [tokenHeader?, written] using other

/-! ## Lines -/

/-- An indented line that is no comment, without its blanks. -/
structure IsContent (text : Text) : Prop where
  solid : IsSolid text
  single : '\n' ∉ text
  shown : text.head? ≠ some '#'

/-- A line that a block can have: the content of a line, and no header of a nested block. -/
structure IsPropertyLine (line : Text) : Prop extends IsContent line where
  plain : ∀ name ∈ nestedBlocks, line ≠ name ++ ":"

/-- A name with a value that can stand in a token category. -/
structure IsToken (token : Text × Text) : Prop where
  name : IsWord token.1
  value : IsSolid token.2
  single : '\n' ∉ token.2

theorem nestedHeader?_eq_none_iff {line : Text} :
    nestedHeader? line = none ↔ ∀ name ∈ nestedBlocks, line ≠ name ++ ":" := by
  constructor
  · rintro none name listed rfl
    have opens : nestedHeader? (name ++ ":") = some name := by
      refine Option.filter_eq_some_iff.2 ⟨beforeColon?_eq_some_iff.2 rfl, ?_⟩
      simpa using listed
    cases none.symm.trans opens
  · intro plain
    rw [Option.eq_none_iff_forall_ne_some]
    intro name opens
    obtain ⟨written, listed⟩ := Option.filter_eq_some_iff.1 opens
    exact plain name (by simpa using listed) (beforeColon?_eq_some_iff.1 written)

theorem isContent_of_content? {line text : Text} (found : content? line = some text)
    (single : '\n' ∉ line) : IsContent text := by
  unfold content? form at found
  split at found
  · rename_i content shape
    simp only at shape
    split_ifs at shape with empty comment margin
    · split at shape <;> cases shape
    · obtain rfl := Form.content.inj shape
      obtain rfl := Option.some.inj found
      refine ⟨isSolid_trim (by simpa using empty), fun feed => single (mem_of_mem_trim feed), ?_⟩
      intro hash
      have lead : leads ['#'] (trim line) = true := leads_single_iff.2 hash
      simp [isComment, lead, margin] at comment
  · cases found

theorem isToken_of_tokenValue? {content : Text} {token : Text × Text} (held : IsContent content)
    (h : tokenValue? content = some token) : IsToken token := by
  unfold tokenValue? at h
  split at h
  · cases h
  · rename_i name rest taken
    simp only at h
    split_ifs at h with missing
    obtain rfl := Option.some.inj h
    obtain ⟨rfl, some, letters⟩ := takeName?_eq_some taken
    simp only [Bool.or_eq_true, not_or, List.isEmpty_iff] at missing
    obtain ⟨⟨-, present⟩, single⟩ := missing
    obtain ⟨blanks, split⟩ := List.dropWhile_suffix isBlank (l := rest)
    refine ⟨⟨some, letters⟩, ⟨present, fun c hc => ?_, fun c hc => ?_⟩, by simpa using single⟩
    · have first := List.head?_dropWhile_not isBlank rest
      rw [Option.mem_def.1 hc] at first
      simpa using first
    · apply held.solid.last
      rw [← split, ← List.append_assoc, List.getLast?_append_of_ne_nil _ present]
      exact hc

theorem isContent_of_mem_body (kind : Section) {owned : List Text}
    (single : ∀ line ∈ owned, '\n' ∉ line) : ∀ text ∈ body kind owned, IsContent text := by
  intro text listed
  obtain ⟨line, hl, found⟩ := List.mem_filterMap.1 listed
  exact isContent_of_content? found (single line ((List.takeWhile_sublist _).subset hl))

end Source

open Source

/-! ## Blocks and documents -/

/-- The lines of a block can be stored, and its nested blocks have the names of nested blocks. -/
structure Block.IsWellFormed (b : Block) : Prop where
  props : ∀ line ∈ b.props, IsPropertyLine line
  nested : ∀ e ∈ b.nested.entries, e.1 ∈ nestedBlocks ∧ ∀ line ∈ e.2, IsPropertyLine line

/-- What a source can describe: constructs with proper headers, tokens with a name and a value, and
well-formed blocks. -/
structure Document.IsWellFormed (d : Document) : Prop where
  tokens : ∀ e ∈ d.tokens.entries, (Header.tokens e.1).IsProper ∧ ∀ token ∈ e.2.entries, IsToken token
  components : ∀ e ∈ d.components.entries, (Header.component e.1).IsProper ∧ e.2.IsWellFormed
  styles : ∀ e ∈ d.styles.entries, (Header.style e.1).IsProper ∧ e.2.IsWellFormed

theorem Source.isWellFormed_blockOf {lines : List Text} (contents : ∀ line ∈ lines, IsContent line) :
    (blockOf lines).IsWellFormed := by
  have storable (line : Text) (listed : line ∈ lines) (plain : nestedHeader? line = none) :
      IsPropertyLine line :=
    ⟨contents line listed, nestedHeader?_eq_none_iff.1 plain⟩
  constructor
  · intro line own
    exact storable line ((List.takeWhile_sublist _).subset own)
      (none_of_mem_takeWhile nestedHeader? lines line own)
  · intro e held
    refine ⟨nested_blockOf held, fun line hl => ?_⟩
    rcases Table.mem_insertAll held with part | none
    · obtain ⟨listed, plain⟩ := mem_of_mem_parts part line hl
      exact storable line listed plain
    · cases none

/-- A section adds nothing that is not well-formed. -/
theorem Document.IsWellFormed.extend {d : Document} (h : d.IsWellFormed)
    {part : Header × List Text} (header : part.1.IsProper) (single : ∀ line ∈ part.2, '\n' ∉ line) :
    (Source.extend d part).IsWellFormed := by
  obtain ⟨head, owned⟩ := part
  have contents := isContent_of_mem_body head.kind single
  cases head with
  | tokens category =>
    refine { h with tokens := fun e he => ?_ }
    rcases Table.mem_assign he with rfl | known
    · refine ⟨header, fun token held => ?_⟩
      rcases Table.mem_insertAll held with added | before
      · obtain ⟨content, listed, found⟩ := List.mem_filterMap.1 added
        exact isToken_of_tokenValue? (contents content listed) found
      · cases found : d.tokens.get? category with
        | none => simp [found, EmptyCollection.emptyCollection, Table.empty] at before
        | some table =>
          rw [found] at before
          exact (h.tokens _ (Table.mem_of_find found)).2 token before
    · exact h.tokens e known
  | component name =>
    refine { h with components := fun e he => ?_ }
    rcases Table.mem_assign he with rfl | known
    · exact ⟨header, isWellFormed_blockOf contents⟩
    · exact h.components e known
  | style selector =>
    refine { h with styles := fun e he => ?_ }
    rcases Table.mem_assign he with rfl | known
    · exact ⟨header, isWellFormed_blockOf contents⟩
    · exact h.styles e known

theorem Document.isWellFormed_empty : ({} : Document).IsWellFormed := by
  constructor <;> exact fun e none => absurd none List.not_mem_nil

/-- Every document that is read from a source is well-formed. -/
theorem Source.isWellFormed_parse (source : Text) : (parse source).IsWellFormed := by
  rw [parse, run_sections,
    run_before_header (none_of_mem_takeWhile rootHeader? (lines source))]
  refine List.foldlRecOn _ extend Document.isWellFormed_empty fun d held part listed => ?_
  obtain ⟨line, -, opens⟩ := mem_parts listed
  refine held.extend (header?_isProper (header?_of_rootHeader? opens)) fun owned ho => ?_
  exact not_mem_of_mem_split (mem_of_mem_parts listed owned ho).1

end Stylesheet
