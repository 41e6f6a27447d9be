import Stylesheet.Proofs.DocumentMerge
import Stylesheet.Proofs.DocumentShape
import Stylesheet.Proofs.DroppedLines

/-!
# Documents as they are written

A well-formed document can be written down, section by section, so that reading gives it back. With
that, the documents that sources describe are just the well-formed ones.

* `Document.write`: a source for a document;
* `form_write`, `form_indented`: what its lines are by themselves;
* `blockOf_contents`, `foldl_extend_tokens`, `foldl_extend_blocks`: what its sections add;
* `parse_write`: reading gives the document back;
* `exists_parse_iff`: which documents have a source.
-/

namespace Stylesheet

open Text
open Color (IsWord)

namespace Source

def Header.write : Header → Text
  | tokens category => category ++ [':']
  | component name => "component" ++ (' ' :: name ++ [':'])
  | style selector => selector ++ [':']

theorem Header.write_style (selector : Text) : (style selector).write = selector ++ [':'] := rfl

theorem Header.write_component (name : Text) :
    (component name).write = "component" ++ (' ' :: name ++ [':']) := rfl

def indented (content : Text) : Text := "  " ++ content

/-- The header of a nested block as it is written. -/
def nestedHeader (name : Text) : Text := name ++ [':']

def writeToken (token : Text × Text) : Text := token.1 ++ ' ' :: token.2

end Source

open Source

/-- The lines of a block and of the blocks nested in it. -/
def Block.contents (b : Block) : List Text :=
  b.props ++ b.nested.entries.flatMap fun e => nestedHeader e.1 :: e.2

namespace Document

/-- The sections that a document is written in. -/
def sections (d : Document) : List (Header × List Text) :=
  d.tokens.entries.map (fun e => (.tokens e.1, (e.2.entries.map writeToken).map indented)) ++
    (d.components.entries.map (fun e => (.component e.1, e.2.contents.map indented)) ++
      d.styles.entries.map (fun e => (.style e.1, e.2.contents.map indented)))

/-- A source that describes a document. -/
def write (d : Document) : Text :=
  join ['\n'] (d.sections.flatMap fun s => s.1.write :: s.2)

end Document

/-! ## The lines of a written document -/

theorem Color.IsWord.not_mem {w : Text} (h : IsWord w) {c : Char} (other : isNameChar c = false) : c ∉ w := by
  intro hc
  cases other.symm.trans (h.letters c hc)

namespace Source

theorem isSolid_of_trim {t : Text} (some : t ≠ []) (same : trim t = t) : IsSolid t :=
  same ▸ isSolid_trim (same.symm ▸ some)

theorem isComment_eq_false {content : Text} (h : content.head? ≠ some '#') (indent : Int) :
    isComment content indent = false := by
  have other : leads ['#'] content = false := leads_eq_false_of_head? [] h
  simp [isComment, other]

theorem form_indented {content : Text} (h : IsContent content) :
    form (indented content) = .content content := by
  have trimmed : trim (indented content) = content := by
    rw [indented, trim_append_of_blank (by decide), h.solid.trim_eq_self]
  have inside : indentation (indented content) ≠ 0 := by
    have front : trimStart (indented content) = content := by
      rw [indented, trimStart_append_of_blank (by decide), trimStart_eq_self h.solid.first]
    rw [indentation, front]
    simp only [indented, List.length_append]
    have blanks : ("  " : Text).length = 2 := rfl
    omega
  simp [form, trimmed, inside, isComment_eq_false h.shown, h.solid.ne_nil]

theorem content?_indented {content : Text} (h : IsContent content) :
    content? (indented content) = some content := by
  rw [content?, form_indented h]

theorem rootHeader?_indented {content : Text} (h : IsContent content) :
    rootHeader? (indented content) = none := by
  rw [rootHeader?, form_indented h]

/-- A line at the left margin that is a header is read as one. -/
theorem form_of_header? {line : Text} {h : Header} (solid : IsSolid line)
    (shown : line.head? = some '#' → (selectorHeader? line).isSome = true)
    (last : line.getLast? = some ':') (opens : header? line = some h) : form line = .header h := by
  have margin : indentation line = 0 := by
    rw [indentation, trimStart_eq_self solid.first, Nat.sub_self]
  have whole : dropFinalNewline line = line := by
    simp [dropFinalNewline, last]
  have plain : isComment line 0 = false := by
    by_cases hash : line.head? = some '#'
    · simp [isComment, whole, shown hash]
    · exact isComment_eq_false hash 0
  simp [form, solid.trim_eq_self, margin, plain, opens, solid.ne_nil]

theorem componentHeader?_eq_none {content : Text} (solid : ∀ c ∈ content, isBlank c = false) :
    componentHeader? content = none := by
  have nameless (front rest : Text) (led : dropLead? front content = some rest) :
      componentName? rest = none := by
    obtain ⟨-, same⟩ := Option.ite_none_right_eq_some.1 led
    obtain rfl := Option.some.inj same
    have bare : (content.drop front.length).takeWhile isBlank = [] := by
      cases dropped : content.drop front.length with
      | nil => rfl
      | cons c rest =>
        have inside : c ∈ content := List.mem_of_mem_drop (dropped ▸ List.mem_cons_self)
        simp [solid c inside]
    simp [componentName?, bare]
  unfold componentHeader?
  split
  · rename_i rest led
    exact nameless _ rest led
  · rw [Option.bind_eq_none_iff]
    exact fun rest led => nameless _ rest led

theorem SelectorForm.isCompound {selector : Text} (h : SelectorForm selector) : IsCompound selector :=
  isCompound_of_isSelector (isSelector_iff.2 h)

theorem tokenHeader?_eq_none {name : Text} (other : name ∉ tokenCategories) :
    tokenHeader? (name ++ [':']) = none := by
  rw [tokenHeader?, beforeColon?_eq_some_iff.2 rfl, Option.filter_some, if_neg (by simpa using other)]

theorem selectorHeader?_write {selector : Text} (h : SelectorForm selector) :
    selectorHeader? (selector ++ [':']) = some selector := by
  rw [selectorHeader?, beforeColon?_eq_some_iff.2 rfl, Option.filter_some,
    if_pos (isSelector_iff.2 h)]

theorem header?_style {selector : Text} (h : (Header.style selector).IsProper) :
    header? (Header.style selector).write = some (.style selector) := by
  have compact : ∀ c ∈ selector ++ [':'], isBlank c = false := by
    intro c hc
    rcases List.mem_append.1 hc with inside | colon
    · exact h.1.isCompound.isBlank_eq_false inside
    · obtain rfl := List.mem_singleton.1 colon
      decide
  simp only [header?, Header.write_style, tokenHeader?_eq_none h.2, componentHeader?_eq_none compact,
    selectorHeader?_write h.1, Option.map_some]

theorem header?_component {name : Text} (named : IsWord name) :
    header? (Header.component name).write = some (.component name) := by
  have spaced : ∀ category ∈ tokenCategories, ' ' ∉ category := by decide
  have other : "component" ++ ' ' :: name ∉ tokenCategories := by
    intro listed
    exact spaced _ listed (List.mem_append_right _ List.mem_cons_self)
  have taken : takeName? (name ++ [':']) = some (name, [':']) := by
    apply takeName?_append named
    intro c hc
    obtain rfl : ':' = c := by simpa using hc
    decide
  have behind : (name ++ [':']).dropWhile isBlank = name ++ [':'] := by
    apply trimStart_eq_self
    rw [List.head?_append_of_ne_nil _ named.nonempty]
    exact named.isSolid.first
  have found : componentName? (' ' :: name ++ [':']) = some name := by
    have blank : isBlank ' ' = true := by decide
    simp [componentName?, blank, behind, taken]
  have opens : componentHeader? (Header.component name).write = some name := by
    simp only [componentHeader?, Header.write_component, dropLead?_append, found]
  have uncategorised : tokenHeader? (Header.component name).write = none := by
    rw [Header.write_component, ← List.append_assoc]
    exact tokenHeader?_eq_none other
  simp only [header?, uncategorised, opens]

theorem isSolid_concat_colon {front : Text} (some : front ≠ [])
    (first : ∀ c ∈ front.head?, isBlank c = false) : IsSolid (front ++ [':']) where
  ne_nil := by simp
  first := by
    rw [List.head?_append_of_ne_nil front some]
    exact first
  last := by
    intro c hc
    obtain rfl : ':' = c := by simpa using hc
    decide

/-- A proper header is read where it is written. -/
theorem rootHeader?_write {h : Header} (proper : h.IsProper) : rootHeader? h.write = some h := by
  cases h with
  | tokens category =>
    have categories : ∀ category ∈ tokenCategories,
        rootHeader? (category ++ [':']) = some (.tokens category) := by decide +kernel
    exact categories category proper
  | component name =>
    have solid : IsSolid (Header.component name).write := by
      rw [Header.write_component, ← List.append_assoc]
      exact isSolid_concat_colon (by simp) (by simp; decide)
    have last : (Header.component name).write.getLast? = some ':' := by
      rw [Header.write_component, ← List.append_assoc, List.getLast?_concat]
    have read := form_of_header? solid (fun hash => absurd hash (by simp [Header.write_component]))
      last (header?_component proper)
    rw [rootHeader?, read]
  | style selector =>
    have compound := proper.1.isCompound
    have solid : IsSolid (Header.style selector).write := by
      refine isSolid_concat_colon compound.ne_nil fun c hc => ?_
      exact compound.isBlank_eq_false (List.mem_of_mem_head? hc)
    have selects : selectorHeader? (Header.style selector).write = some selector :=
      selectorHeader?_write proper.1
    have read := form_of_header? solid (fun _ => by rw [selects]; rfl)
      List.getLast?_concat (header?_style proper)
    rw [rootHeader?, read]

theorem newline_not_mem_write {h : Header} (proper : h.IsProper) : '\n' ∉ h.write := by
  cases h with
  | tokens category =>
    have categories : ∀ category ∈ tokenCategories, '\n' ∉ category ++ [':'] := by decide +kernel
    exact categories category proper
  | component name =>
    have nameless : '\n' ∉ name := proper.not_mem (by decide)
    simp [Header.write_component, nameless]
  | style selector =>
    have clear : '\n' ∉ selector := proper.1.isCompound.not_mem (by decide)
    simp [Header.write_style, clear]

/-! ## What its sections add -/

theorem isContent_nestedHeader {name : Text} (listed : name ∈ nestedBlocks) :
    IsContent (nestedHeader name) := by
  have all : ∀ name ∈ nestedBlocks, nestedHeader name ≠ [] ∧
      trim (nestedHeader name) = nestedHeader name ∧ '\n' ∉ nestedHeader name ∧
      (nestedHeader name).head? ≠ some '#' := by decide +kernel
  obtain ⟨some, same, single, shown⟩ := all name listed
  exact ⟨isSolid_of_trim some same, single, shown⟩

theorem nestedHeader?_nestedHeader {name : Text} (listed : name ∈ nestedBlocks) :
    nestedHeader? (nestedHeader name) = some name := by
  refine Option.filter_eq_some_iff.2 ⟨beforeColon?_eq_some_iff.2 rfl, ?_⟩
  simpa using listed

theorem isContent_writeToken {token : Text × Text} (h : IsToken token) :
    IsContent (writeToken token) := by
  refine ⟨?_, ?_, ?_⟩
  · simpa [writeToken] using h.name.isSolid.append h.value [' ']
  · have nameless : '\n' ∉ token.1 := h.name.not_mem (by decide)
    simp [writeToken, nameless, h.single]
  · intro hash
    rw [writeToken, List.head?_append_of_ne_nil _ h.name.nonempty] at hash
    exact h.name.not_mem (c := '#') (by decide) (List.mem_of_mem_head? hash)

theorem tokenValue?_writeToken {token : Text × Text} (h : IsToken token) :
    tokenValue? (writeToken token) = some token := by
  have blank : isBlank ' ' = true := by decide
  have taken : takeName? (writeToken token) = some (token.1, ' ' :: token.2) := by
    apply takeName?_append h.name
    intro c hc
    obtain rfl : ' ' = c := by simpa using hc
    decide
  have value : token.2.dropWhile isBlank = token.2 := trimStart_eq_self h.value.first
  simp [tokenValue?, taken, blank, value, h.value.ne_nil, h.single]

theorem filterMap_map_eq_self {α β : Type} {f : α → β} {g : β → Option α} {xs : List α}
    (back : ∀ x ∈ xs, g (f x) = some x) : (xs.map f).filterMap g = xs := by
  rw [List.filterMap_map]
  exact (List.filterMap_congr back).trans List.filterMap_some

theorem body_indented {contents : List Text} (h : ∀ content ∈ contents, IsContent content)
    (kind : Section) : body kind (contents.map indented) = contents := by
  have attached : (contents.map indented).takeWhile (fun line => !detaches kind line) =
      contents.map indented := by
    rw [List.takeWhile_eq_self_iff]
    intro line hl
    obtain ⟨content, hc, rfl⟩ := List.mem_map.1 hl
    rw [detaches, form_indented (h content hc)]
    rfl
  rw [body, attached, filterMap_map_eq_self fun content hc => content?_indented (h content hc)]

end Source

theorem Block.IsWellFormed.isContent {b : Block} (h : b.IsWellFormed) :
    ∀ content ∈ b.contents, IsContent content := by
  intro content listed
  rcases List.mem_append.1 listed with own | nested
  · exact (h.props content own).toIsContent
  · obtain ⟨e, he, inside⟩ := List.mem_flatMap.1 nested
    obtain ⟨name, lines⟩ := h.nested e he
    rcases List.mem_cons.1 inside with rfl | line
    · exact isContent_nestedHeader name
    · exact (lines content line).toIsContent

namespace Source

/-- The lines of a block describe it. -/
theorem blockOf_contents {b : Block} (h : b.IsWellFormed) : blockOf b.contents = b := by
  have own : ∀ line ∈ b.props, nestedHeader? line = none :=
    fun line hl => nestedHeader?_eq_none_iff.2 (h.props line hl).plain
  obtain ⟨found, front⟩ := parts_flatMap nestedHeader? nestedHeader
    (fun e he => nestedHeader?_nestedHeader (h.nested e he).1)
    (fun e he line hl => nestedHeader?_eq_none_iff.2 ((h.nested e he).2 line hl).plain)
  rw [blockOf, Block.contents, takeWhile_plain own, front, parts_plain own, found, List.append_nil,
    Table.ofList_eq_insertAll, Table.insertAll_entries]

theorem extend_tokens {d : Document} {category : Text} (new : category ∉ d.tokens.keys)
    {table : Table Text} (tokens : ∀ token ∈ table.entries, IsToken token) :
    extend d (.tokens category, (table.entries.map writeToken).map indented) =
      { d with tokens := d.tokens.insert category table } := by
  have contents : ∀ content ∈ table.entries.map writeToken, IsContent content := by
    intro content listed
    obtain ⟨token, ht, rfl⟩ := List.mem_map.1 listed
    exact isContent_writeToken (tokens token ht)
  have values : (table.entries.map writeToken).filterMap tokenValue? = table.entries :=
    filterMap_map_eq_self fun token ht => tokenValue?_writeToken (tokens token ht)
  have unknown : d.tokens.get? category = none := Table.find_eq_none_of_not_mem new
  simp only [extend, body_indented contents, values, unknown, Option.getD_none,
    Table.insertAll_entries]

theorem extend_block {h : Header} (block : h.kind ≠ .tokens) (d : Document) {b : Block}
    (formed : b.IsWellFormed) : extend d (h, b.contents.map indented) = h.put d b := by
  cases h with
  | tokens category => exact absurd rfl block
  | component | style =>
    simp only [extend, body_indented formed.isContent, blockOf_contents formed, Header.put]

theorem foldl_extend_tokens {d : Document} {entries : List (Text × Table Text)}
    (nodup : (entries.map Prod.fst).Nodup) (new : ∀ e ∈ entries, e.1 ∉ d.tokens.keys)
    (tokens : ∀ e ∈ entries, ∀ token ∈ e.2.entries, IsToken token) :
    (entries.map fun e => (Header.tokens e.1, (e.2.entries.map writeToken).map indented)).foldl
      extend d = { d with tokens := d.tokens.insertAll entries } := by
  induction entries generalizing d with
  | nil => rfl
  | cons e entries ih =>
    obtain ⟨fresh, nodup⟩ := List.nodup_cons.1 nodup
    obtain ⟨first, new⟩ := List.forall_mem_cons.1 new
    obtain ⟨own, tokens⟩ := List.forall_mem_cons.1 tokens
    have later : ∀ f ∈ entries, f.1 ∉ (d.tokens.insert e.1 e.2).keys := by
      intro f hf
      have other : f.1 ≠ e.1 := fun same => fresh (same ▸ List.mem_map_of_mem hf)
      simp [Table.keys_insert, first, new f hf, other]
    rw [List.map_cons, List.foldl_cons, extend_tokens first own, ih nodup later tokens]
    rfl

/-- Blocks are added one by one to the table of a document that their headers name. -/
theorem foldl_extend_blocks (make : Text → Header) (within : Table Block → Document)
    (block : ∀ name, (make name).kind ≠ .tokens)
    (put : ∀ t name b, (make name).put (within t) b = within (t.insert name b)) (t : Table Block)
    {entries : List (Text × Block)} (formed : ∀ e ∈ entries, e.2.IsWellFormed) :
    (entries.map fun e => (make e.1, e.2.contents.map indented)).foldl extend (within t) =
      within (t.insertAll entries) := by
  induction entries generalizing t with
  | nil => rfl
  | cons e entries ih =>
    obtain ⟨first, later⟩ := List.forall_mem_cons.1 formed
    rw [List.map_cons, List.foldl_cons, extend_block (block e.1) _ first, put, ih _ later,
      Table.insertAll_cons]

end Source

namespace Document.IsWellFormed

variable {d : Document} (h : d.IsWellFormed)
include h

/-- The sections of a document add up to it. -/
theorem foldl_sections : d.sections.foldl Source.extend {} = d := by
  have tokens := foldl_extend_tokens (d := {}) d.tokens.nodup (fun _ _ => List.not_mem_nil)
    fun e he => (h.tokens e he).2
  have components := foldl_extend_blocks .component
    (fun t => { tokens := d.tokens, components := t }) (by simp [Header.kind])
    (fun _ _ _ => rfl) ∅ fun e he => (h.components e he).2
  have styles := foldl_extend_blocks .style
    (fun t => { tokens := d.tokens, components := d.components, styles := t })
    (by simp [Header.kind]) (fun _ _ _ => rfl) ∅ fun e he => (h.styles e he).2
  rw [Table.insertAll_entries] at components styles
  rw [sections, List.foldl_append, List.foldl_append, tokens, Table.insertAll_entries, components,
    styles]

theorem sections_spec : ∀ s ∈ d.sections, s.1.IsProper ∧
    ∀ line ∈ s.2, ∃ content, IsContent content ∧ line = indented content := by
  have lines {contents : List Text} (held : ∀ content ∈ contents, IsContent content) :
      ∀ line ∈ contents.map indented, ∃ content, IsContent content ∧ line = indented content := by
    intro line hl
    obtain ⟨content, hc, rfl⟩ := List.mem_map.1 hl
    exact ⟨content, held content hc, rfl⟩
  intro s hs
  simp only [sections, List.mem_append, List.mem_map] at hs
  rcases hs with ⟨e, he, rfl⟩ | ⟨e, he, rfl⟩ | ⟨e, he, rfl⟩
  · obtain ⟨proper, tokens⟩ := h.tokens e he
    refine ⟨proper, lines fun content hc => ?_⟩
    obtain ⟨token, ht, rfl⟩ := List.mem_map.1 hc
    exact isContent_writeToken (tokens token ht)
  · obtain ⟨proper, formed⟩ := h.components e he
    exact ⟨proper, lines formed.isContent⟩
  · obtain ⟨proper, formed⟩ := h.styles e he
    exact ⟨proper, lines formed.isContent⟩

/-- Reading what is written of a document gives it back. -/
theorem parse_write : parse d.write = d := by
  have single : ∀ line ∈ d.sections.flatMap (fun s => s.1.write :: s.2), '\n' ∉ line := by
    intro line hl
    obtain ⟨s, hs, inside⟩ := List.mem_flatMap.1 hl
    obtain ⟨proper, owned⟩ := h.sections_spec s hs
    rcases List.mem_cons.1 inside with rfl | hl
    · exact newline_not_mem_write proper
    · obtain ⟨content, held, rfl⟩ := owned line hl
      simp [indented, held.single]
  obtain ⟨found, front⟩ := parts_flatMap rootHeader? Header.write
    (fun s hs => rootHeader?_write (h.sections_spec s hs).1) (by
      intro s hs line hl
      obtain ⟨content, held, rfl⟩ := (h.sections_spec s hs).2 line hl
      exact rootHeader?_indented held)
  rw [parse, write, Lint.run_lines_join {} single, run_sections, found, front]
  exact h.foldl_sections

end Document.IsWellFormed

/-- A document is what some source describes exactly if it is well-formed. -/
theorem exists_parse_iff (d : Document) : (∃ source, parse source = d) ↔ d.IsWellFormed := by
  constructor
  · rintro ⟨source, rfl⟩
    exact isWellFormed_parse source
  · intro h
    exact ⟨d.write, h.parse_write⟩

end Stylesheet
