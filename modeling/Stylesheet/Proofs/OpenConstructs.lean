import Stylesheet.Proofs.Sections

/-!
# What is open while a source is read

Comments change the kind of construct that lines belong to, and of the names that a context remembers
they clear only some. Still, what a context names is always there: the reader never looks for a
construct that the document does not have.

* `Reader.step?`: a reader that takes nothing for granted, and stops where something is missing;
* `Reader.Anchored`: the states in which what is open is in the document;
* `step_anchored`, `step?_eq_some`: a line leads from such a state to another, and nothing is missing;
* `run_sound`: so it is in every state that reading leads to.
-/

namespace Stylesheet

/-- The table in which the value of `key`, which must be there, is changed. -/
def Table.change? {α : Type} (t : Table α) (key : Text) (f : α → Option α) : Option (Table α) := do
  let value ← t.get? key
  return t.insert key (← f value)

theorem Table.change?_insert {α : Type} (t : Table α) (key : Text) (value : α) (f : α → Option α) :
    (t.insert key value).change? key f = (f value).map (t.insert key) := by
  cases changed : f value with
  | none => simp [change?, get?_insert_self, changed]
  | some new => simp [change?, get?_insert_self, changed, insert_insert]

namespace Source

open Text

namespace Reader

/-- Adds a property line to a block. A nested block that is open must be there. -/
def addLine? (nested : Option Text) (content : Text) (b : Block) : Option Block :=
  match nested with
  | none => some (b.addProp content)
  | some name => do
    return { b with nested := ← b.nested.change? name fun held => some (held ++ [content]) }

/-- Opens a nested block of the component or style rule that lines belong to, which must be there. A
style rule counts only where lines belong to style rules. -/
def openNested? (r : Reader) (name : Text) : Option Reader :=
  match r.context.state, r.context.component, r.context.selector with
  | some .components, some component, _ => do
    let changed ← r.document.components.change? component (some <| ·.openNested name)
    return { context := { r.context with nested := some name }
             document := { r.document with components := changed } }
  | some .styles, _, some selector => do
    let changed ← r.document.styles.change? selector (some <| ·.openNested name)
    return { context := { r.context with nested := some name }
             document := { r.document with styles := changed } }
  | _, _, _ => some r

/-- Adds a line of content to the open construct, which must be there. -/
def addContent? (r : Reader) (content : Text) : Option Reader :=
  match r.context.state, r.context.category, r.context.component, r.context.selector with
  | some .tokens, some category, _, _ =>
    match tokenValue? content with
    | none => some r
    | some (name, value) => do
      let changed ← r.document.tokens.change? category (some <| ·.insert name value)
      return { r with document := { r.document with tokens := changed } }
  | some .components, _, some component, _ => do
    let changed ← r.document.components.change? component (addLine? r.context.nested content)
    return { r with document := { r.document with components := changed } }
  | some .styles, _, _, some selector => do
    let changed ← r.document.styles.change? selector (addLine? r.context.nested content)
    return { r with document := { r.document with styles := changed } }
  | _, _, _, _ => some r

/-- A line of content, given to a reader that stops where something is missing. -/
def feed? (r : Reader) (content : Text) : Option Reader :=
  match nestedHeader? content with
  | some name => r.openNested? name
  | none => r.addContent? content

/-- Reads one line, and stops where something that it looks for is missing. -/
def step? (r : Reader) (line : Text) : Option Reader :=
  match form line with
  | .header h => some (r.openRoot h)
  | .comment announced => some { r with context := r.context.announce announced }
  | .content text => r.feed? text
  | .idle => some r

end Reader

/-- A block has the nested block that is open in it. -/
def HoldsOpen (s : Option Text × Block) : Prop :=
  ∀ name, s.1 = some name → name ∈ s.2.nested.keys

/-- The states in which what is open is in the document: nothing is open, or a token category, or a
component or a style rule, perhaps with a nested block that it has. -/
inductive Reader.Anchored : Reader → Prop
  | detached {r : Reader} (h : r.context.Detached) : Anchored r
  | inTokens (category : Text) (d : Document) (t : Table Text) : Anchored (inTokens category d t)
  | inBlock {h : Header} (block : h.kind ≠ .tokens) (d : Document) {s : Option Text × Block}
      (held : HoldsOpen s) : Anchored (inBlock h d s)

theorem HoldsOpen.feedBlock {s : Option Text × Block} (h : HoldsOpen s) (content : Text) :
    HoldsOpen (feedBlock s content) := by
  obtain ⟨nested, b⟩ := s
  intro name open_
  unfold Source.feedBlock at open_ ⊢
  cases opened : nestedHeader? content with
  | some new =>
    simp only [opened, Option.some.injEq] at open_ ⊢
    subst open_
    exact Table.mem_keys_insert_self _ _ _
  | none =>
    simp only [opened] at open_ ⊢
    subst open_
    exact Table.mem_keys_insert_self _ _ _

/-! ## What a line does to what is open -/

theorem openRoot_anchored (r : Reader) (h : Header) : (r.openRoot h).Anchored := by
  have fresh : HoldsOpen (none, {}) := fun name open_ => by cases open_
  cases h with
  | tokens category =>
    have opened : r.openRoot (.tokens category) =
        inTokens category r.document ((r.document.tokens.get? category).getD ∅) := by
      simp only [Reader.openRoot, inTokens, openCategory_eq]
    rw [opened]
    exact .inTokens _ _ _
  | component name =>
    exact .inBlock (h := .component name) (by simp [Header.kind]) r.document fresh
  | style selector =>
    exact .inBlock (h := .style selector) (by simp [Header.kind]) r.document fresh

theorem announce_anchored {r : Reader} (h : r.Anchored) (announced : Option Section) :
    Reader.Anchored { r with context := r.context.announce announced } := by
  cases announced with
  | none => exact h
  | some kind =>
    cases h with
    | detached h => exact .detached (h.announce _)
    | inTokens category d t =>
      by_cases own : kind = (Header.tokens category).kind
      · have same := announce_own (.tokens category) none
        rw [← own] at same
        exact same ▸ .inTokens category d t
      · exact .detached (detached_of_announce (.tokens category) none own)
    | @inBlock h block d s held =>
      by_cases own : kind = h.kind
      · have same := announce_own h s.1
        rw [← own] at same
        exact same ▸ .inBlock block d held
      · exact .detached (detached_of_announce h s.1 own)

theorem feed_anchored {r : Reader} (h : r.Anchored) (content : Text) : (r.feed content).Anchored := by
  cases h with
  | detached h =>
    rw [feed_detached h]
    exact .detached h
  | inTokens category d t =>
    rw [feed_inTokens]
    exact .inTokens _ _ _
  | inBlock block d held =>
    rw [feed_inBlock block]
    exact .inBlock block d (held.feedBlock content)

theorem step_anchored {r : Reader} (h : r.Anchored) (line : Text) : (r.step line).Anchored := by
  rw [step_form]
  cases form line with
  | header header => exact openRoot_anchored r header
  | comment announced => exact announce_anchored h announced
  | content text => exact feed_anchored h text
  | idle => exact h

theorem run_anchored {r : Reader} (h : r.Anchored) (lines : List Text) : (r.run lines).Anchored := by
  induction lines generalizing r with
  | nil => exact h
  | cons line lines ih => exact ih (step_anchored h line)

theorem anchored_start : Reader.Anchored {} :=
  .detached ⟨rfl, rfl, rfl⟩

/-! ## Nothing that is looked for is missing -/

theorem addLine?_eq_some {s : Option Text × Block} (h : HoldsOpen s) (content : Text) :
    Reader.addLine? s.1 content s.2 = some (Reader.addLine s.1 content s.2) := by
  obtain ⟨nested, b⟩ := s
  cases nested with
  | none => rfl
  | some name =>
    obtain ⟨held, found⟩ := Table.exists_get?_of_mem_keys (h name rfl)
    simp only at found
    simp [Reader.addLine?, Reader.addLine, Block.addNested, Table.change?, found]

theorem feed?_detached {r : Reader} (h : r.context.Detached) (content : Text) :
    r.feed? content = some r := by
  obtain ⟨category, component, selector⟩ := h
  unfold Reader.feed?
  split
  · simp [Reader.openNested?, component, selector]
  · simp [Reader.addContent?, category, component, selector]

theorem feed?_inTokens (category : Text) (d : Document) (t : Table Text) (content : Text) :
    (inTokens category d t).feed? content = some ((inTokens category d t).feed content) := by
  rw [feed_inTokens, Reader.feed?]
  cases nested : nestedHeader? content with
  | some name =>
    simp [tokenValue?_of_nestedHeader nested, Reader.openNested?, inTokens, Header.context]
  | none =>
    cases value : tokenValue? content with
    | none => simp [value, Reader.addContent?, inTokens, Header.context]
    | some token => simp [value, Reader.addContent?, inTokens, Header.context, Table.change?_insert]

theorem feed?_inBlock {h : Header} (block : h.kind ≠ .tokens) (d : Document)
    {s : Option Text × Block} (held : HoldsOpen s) (content : Text) :
    (inBlock h d s).feed? content = some ((inBlock h d s).feed content) := by
  have added := addLine?_eq_some held content
  rw [feed_inBlock block, Reader.feed?, feedBlock]
  cases nested : nestedHeader? content with
  | some name =>
    cases h with
    | tokens category => exact absurd rfl block
    | component | style =>
      simp [Reader.openNested?, inBlock, Header.context, Header.put, Table.change?_insert]
  | none =>
    cases h with
    | tokens category => exact absurd rfl block
    | component | style =>
      simp [Reader.addContent?, inBlock, Header.context, Header.put, Table.change?_insert, added]

theorem step?_eq_some {r : Reader} (h : r.Anchored) (line : Text) :
    r.step? line = some (r.step line) := by
  rw [step_form, Reader.step?]
  cases form line with
  | header header => rfl
  | comment announced => rfl
  | idle => rfl
  | content text =>
    show r.feed? text = some (r.feed text)
    cases h with
    | detached h => rw [feed?_detached h, feed_detached h]
    | inTokens category d t => exact feed?_inTokens category d t text
    | inBlock block d held => exact feed?_inBlock block d held text

/-! ## Every state of a reader -/

/-- What the context of a reader says fits its document. -/
structure Reader.Sound (r : Reader) : Prop where
  /-- At most one construct is open. -/
  single : [r.context.category, r.context.component, r.context.selector].countP (·.isSome) ≤ 1
  category : ∀ category, r.context.category = some category →
    r.context.state = some .tokens ∧ category ∈ r.document.tokens.keys
  component : ∀ name, r.context.component = some name →
    r.context.state = some .components ∧ name ∈ r.document.components.keys
  selector : ∀ selector, r.context.selector = some selector →
    r.context.state = some .styles ∧ selector ∈ r.document.styles.keys
  /-- An open nested block is one of the open component. -/
  inComponent : ∀ name nested, r.context.component = some name → r.context.nested = some nested →
    ∃ b, r.document.components.get? name = some b ∧ nested ∈ b.nested.keys
  /-- An open nested block is one of the open style rule. -/
  inStyle : ∀ selector nested, r.context.selector = some selector →
    r.context.nested = some nested →
    ∃ b, r.document.styles.get? selector = some b ∧ nested ∈ b.nested.keys

theorem Reader.Anchored.sound {r : Reader} (h : r.Anchored) : r.Sound := by
  cases h with
  | detached h =>
    obtain ⟨category, component, selector⟩ := h
    constructor <;> simp [category, component, selector]
  | inTokens category d t =>
    constructor <;> simp [Source.inTokens, Header.context, Table.mem_keys_insert_self]
  | @inBlock h block d s held =>
    -- The block was just put in its place, so both its name and its nested block are found.
    obtain ⟨nested, b⟩ := s
    cases h with
    | tokens category => exact absurd rfl block
    | component name =>
      constructor
      case inComponent =>
        rintro _ inner ⟨⟩ open_
        exact ⟨b, Table.get?_insert_self _ _ _, held inner open_⟩
      all_goals simp [Source.inBlock, Header.context, Header.put, Table.mem_keys_insert_self]
    | style selector =>
      constructor
      case inStyle =>
        rintro _ inner ⟨⟩ open_
        exact ⟨b, Table.get?_insert_self _ _ _, held inner open_⟩
      all_goals simp [Source.inBlock, Header.context, Header.put, Table.mem_keys_insert_self]

/-- Whatever lines a reader is given from the start, what its context says fits its document. Reading
a further line never looks in vain for a construct or a nested block, never makes a nested block for a
line of content, and opens nested blocks of a style rule only where lines belong to style rules: a
reader that stops in each of these cases does not stop. -/
theorem run_sound (lines : List Text) :
    (Reader.run {} lines).Sound ∧
      ∀ line, (Reader.run {} lines).step? line = some ((Reader.run {} lines).step line) := by
  have anchored := run_anchored anchored_start lines
  exact ⟨anchored.sound, step?_eq_some anchored⟩

end Source

end Stylesheet
