import Stylesheet.Proofs.TableLaws
import Stylesheet.Source.Reader

/-!
# A source as a list of sections

The reader goes through a source line by line and remembers what is open. The same document is found
without any memory: the root headers divide the lines into sections, and each section says by itself
what it adds to the document.

* `step_form`: what a line does to the reader depends only on its form;
* `foldl_parts`: a machine that starts afresh at certain elements works part by part;
* `run_section`: the reader adds to the document what the section says;
* `run_sections`: so it does for all sections, one after another.
-/

namespace Stylesheet

/-- The elements of a list that open a part, each with those behind it up to the next that opens one.
What stands in front of the first belongs to no part. -/
def parts {α β : Type} (opens? : α → Option β) : List α → List (β × List α)
  | [] => []
  | x :: xs =>
    match opens? x with
    | some b => (b, xs.takeWhile fun y => (opens? y).isNone) :: parts opens? xs
    | none => parts opens? xs

theorem mem_parts {α β : Type} {opens? : α → Option β} {xs : List α} {part : β × List α}
    (h : part ∈ parts opens? xs) : ∃ x ∈ xs, opens? x = some part.1 := by
  induction xs with
  | nil => cases h
  | cons x xs ih =>
    unfold parts at h
    split at h
    · rename_i b opens
      rcases List.mem_cons.1 h with rfl | h
      · exact ⟨x, List.mem_cons_self, opens⟩
      · obtain ⟨y, hy, found⟩ := ih h
        exact ⟨y, List.mem_cons_of_mem x hy, found⟩
    · obtain ⟨y, hy, found⟩ := ih h
      exact ⟨y, List.mem_cons_of_mem x hy, found⟩

theorem none_of_mem_takeWhile {α β : Type} (opens? : α → Option β) (xs : List α) :
    ∀ y ∈ xs.takeWhile fun y => (opens? y).isNone, opens? y = none := by
  intro y hy
  simpa using List.all_eq_true.1 List.all_takeWhile y hy

/-- The elements of a part stand in the list and open no part. -/
theorem mem_of_mem_parts {α β : Type} {opens? : α → Option β} {xs : List α} {part : β × List α}
    (h : part ∈ parts opens? xs) : ∀ y ∈ part.2, y ∈ xs ∧ opens? y = none := by
  induction xs with
  | nil => cases h
  | cons x xs ih =>
    intro y hy
    unfold parts at h
    split at h
    · rcases List.mem_cons.1 h with rfl | h
      · have inside : y ∈ xs := (List.takeWhile_sublist _).subset hy
        exact ⟨List.mem_cons_of_mem x inside, none_of_mem_takeWhile opens? xs y hy⟩
      · exact (ih h y hy).imp_left (List.mem_cons_of_mem x)
    · exact (ih h y hy).imp_left (List.mem_cons_of_mem x)

theorem takeWhile_plain {α β : Type} {opens? : α → Option β} {front : List α}
    (plain : ∀ y ∈ front, opens? y = none) (xs : List α) :
    (front ++ xs).takeWhile (fun y => (opens? y).isNone) =
      front ++ xs.takeWhile fun y => (opens? y).isNone :=
  List.takeWhile_append_of_pos fun y hy => by simp [plain y hy]

theorem parts_plain {α β : Type} {opens? : α → Option β} {front : List α}
    (plain : ∀ y ∈ front, opens? y = none) (xs : List α) :
    parts opens? (front ++ xs) = parts opens? xs := by
  induction front with
  | nil => rfl
  | cons y front ih =>
    rw [List.cons_append, parts, plain y List.mem_cons_self]
    exact ih fun z hz => plain z (List.mem_cons_of_mem y hz)

/-- Parts that are strung together, each behind an element that opens it, are found again. -/
theorem parts_flatMap {α β : Type} (opens? : α → Option β) (opening : β → α)
    {sections : List (β × List α)} (opens : ∀ s ∈ sections, opens? (opening s.1) = some s.1)
    (plain : ∀ s ∈ sections, ∀ y ∈ s.2, opens? y = none) :
    parts opens? (sections.flatMap fun s => opening s.1 :: s.2) = sections ∧
      (sections.flatMap fun s => opening s.1 :: s.2).takeWhile (fun y => (opens? y).isNone) = [] := by
  induction sections with
  | nil => exact ⟨rfl, rfl⟩
  | cons s sections ih =>
    obtain ⟨first, opens⟩ := List.forall_mem_cons.1 opens
    obtain ⟨own, plain⟩ := List.forall_mem_cons.1 plain
    obtain ⟨later, closed⟩ := ih opens plain
    rw [List.flatMap_cons, List.cons_append]
    constructor
    · rw [parts, first, takeWhile_plain own, closed, parts_plain own, later, List.append_nil]
    · rw [List.takeWhile_cons, first]
      rfl

/-- A machine whose view of the state, after an element that opens a part and others that do not, is
given by the view before and the part, gives the same view as going through the parts. -/
theorem foldl_parts {α β σ δ : Type} (opens? : α → Option β) (step : σ → α → σ) (view : σ → δ)
    (add : δ → β × List α → δ)
    (part : ∀ s x b owned, opens? x = some b → (∀ y ∈ owned, opens? y = none) →
      view (owned.foldl step (step s x)) = add (view s) (b, owned)) (xs : List α) (s : σ) :
    view (xs.foldl step s) = (parts opens? xs).foldl add
      (view ((xs.takeWhile fun y => (opens? y).isNone).foldl step s)) := by
  induction xs generalizing s with
  | nil => rfl
  | cons x xs ih =>
    cases opened : opens? x with
    | some b =>
      have first := part s x b _ opened (none_of_mem_takeWhile opens? xs)
      simp only [List.foldl_cons, parts, opened, List.takeWhile_cons, Option.isNone_some,
        Bool.false_eq_true, if_false, List.foldl_nil]
      rw [ih, first]
    | none =>
      simp only [List.foldl_cons, parts, opened, List.takeWhile_cons, Option.isNone_none, if_true]
      exact ih (step s x)

namespace Source

open Text

/-- What a line is by itself. -/
inductive Form where
  | header (h : Header)
  /-- A comment, and the kind of construct that it announces. -/
  | comment (announced : Option Section)
  | content (text : Text)
  /-- A blank line, or one at the left margin that is no header. -/
  | idle

def form (line : Text) : Form :=
  let content := trim line
  if content.isEmpty then .idle
  else if isComment content (indentation line) then .comment (announced? content)
  else if indentation line = 0 then
    match header? content with
    | some h => .header h
    | none => .idle
  else .content content

def rootHeader? (line : Text) : Option Header :=
  match form line with
  | .header h => some h
  | _ => none

/-- The content of a line that is indented, not blank and no comment. -/
def content? (line : Text) : Option Text :=
  match form line with
  | .content text => some text
  | _ => none

/-- Whether a line is a comment that announces another kind of construct than the given one. -/
def detaches (kind : Section) (line : Text) : Bool :=
  match form line with
  | .comment (some announced) => announced != kind
  | _ => false

def Header.kind : Header → Section
  | tokens _ => .tokens
  | component _ => .components
  | style _ => .styles

/-- The lines that count among those that a header owns: what is indented, up to the first comment
that announces another kind of construct. -/
def body (kind : Section) (owned : List Text) : List Text :=
  (owned.takeWhile fun line => !detaches kind line).filterMap content?

/-- The block of a component or a style rule with these lines: its own lines stand in front of the
first nested header; a nested block that is opened again starts afresh in its old place. -/
def blockOf (lines : List Text) : Block where
  props := lines.takeWhile fun line => (nestedHeader? line).isNone
  nested := .ofList (parts nestedHeader? lines)

/-- A document with what a header and the lines that it owns say. -/
def extend (d : Document) : Header × List Text → Document
  | (.tokens category, owned) =>
    let known := (d.tokens.get? category).getD ∅
    let added := (body .tokens owned).filterMap tokenValue?
    { d with tokens := d.tokens.insert category (known.insertAll added) }
  | (.component name, owned) =>
    { d with components := d.components.insert name (blockOf (body .components owned)) }
  | (.style selector, owned) =>
    { d with styles := d.styles.insert selector (blockOf (body .styles owned)) }

/-- The document that the sections of a source describe. -/
def sectionwise (source : Text) : Document :=
  (parts rootHeader? (lines source)).foldl extend {}

/-- A line of content, given to the reader. -/
def Reader.feed (r : Reader) (content : Text) : Reader :=
  match nestedHeader? content with
  | some name => r.openNested name
  | none => r.addContent content

theorem step_form (r : Reader) (line : Text) :
    r.step line =
      match form line with
      | .header h => r.openRoot h
      | .comment announced => { r with context := r.context.announce announced }
      | .content text => r.feed text
      | .idle => r := by
  unfold Reader.step form
  by_cases empty : (trim line).isEmpty
  · simp [empty]
  · by_cases comment : isComment (trim line) (indentation line)
    · simp [empty, comment]
    · by_cases margin : indentation line = 0
      · cases header : header? (trim line) <;> simp_all
      · cases nested : nestedHeader? (trim line) <;>
          simp [empty, comment, margin, Reader.feed, nested]

/-! ## Lines behind a comment that announces something else -/

/-- Nothing is open that a line of content could go to. -/
def Context.Detached (ctx : Context) : Prop :=
  ctx.category = none ∧ ctx.component = none ∧ ctx.selector = none

/-- Comments close constructs and never open one. -/
theorem Context.Detached.announce {ctx : Context} (h : ctx.Detached) (announced : Option Section) :
    (ctx.announce announced).Detached := by
  obtain ⟨category, component, selector⟩ := h
  cases announced with
  | none => exact ⟨category, component, selector⟩
  | some kind =>
    cases kind <;> simp [Context.announce, Context.Detached, category, component, selector]

theorem feed_detached {r : Reader} (h : r.context.Detached) (content : Text) :
    r.feed content = r := by
  obtain ⟨category, component, selector⟩ := h
  cases nested : nestedHeader? content with
  | some name => simp [Reader.feed, nested, Reader.openNested, component, selector]
  | none =>
    simp only [Reader.feed, nested, Reader.addContent, category, component, selector]
    split <;> rfl

theorem step_detached {r : Reader} (h : r.context.Detached) {line : Text}
    (plain : rootHeader? line = none) :
    (r.step line).context.Detached ∧ (r.step line).document = r.document := by
  rw [step_form]
  cases shape : form line with
  | header header => simp [rootHeader?, shape] at plain
  | comment announced => exact ⟨h.announce announced, rfl⟩
  | content text =>
    show (r.feed text).context.Detached ∧ (r.feed text).document = r.document
    rw [feed_detached h text]
    exact ⟨h, rfl⟩
  | idle => exact ⟨h, rfl⟩

theorem run_detached {r : Reader} (h : r.context.Detached) {lines : List Text}
    (plain : ∀ line ∈ lines, rootHeader? line = none) : (r.run lines).document = r.document := by
  induction lines generalizing r with
  | nil => rfl
  | cons line lines ih =>
    obtain ⟨detached, kept⟩ := step_detached h (plain line List.mem_cons_self)
    have rest := ih detached fun l hl => plain l (List.mem_cons_of_mem line hl)
    rw [← kept, ← rest]
    rfl

/-- A comment that announces another kind closes what a header opened. -/
theorem detached_of_announce (h : Header) (nested : Option Text) {kind : Section}
    (other : kind ≠ h.kind) :
    (({ h.context with nested := nested } : Context).announce (some kind)).Detached := by
  cases h <;> cases kind <;>
    first
    | exact absurd rfl other
    | exact ⟨rfl, rfl, rfl⟩

/-- A comment that announces the kind that is open changes nothing. -/
theorem announce_own (h : Header) (nested : Option Text) :
    ({ h.context with nested := nested } : Context).announce (some h.kind) =
      { h.context with nested := nested } := by
  cases h <;> rfl

theorem run_detaching {r : Reader} {h : Header} {nested : Option Text}
    (context : r.context = { h.context with nested := nested }) {line : Text}
    (other : detaches h.kind line = true) {lines : List Text}
    (plain : ∀ l ∈ lines, rootHeader? l = none) : (r.run (line :: lines)).document = r.document := by
  unfold detaches at other
  split at other
  · rename_i kind shape
    have step : r.step line = { r with context := r.context.announce (some kind) } := by
      rw [step_form, shape]
    have detached : (r.step line).context.Detached := by
      rw [step, context]
      exact detached_of_announce h nested (by simpa using other)
    calc (r.run (line :: lines)).document
        = ((r.step line).run lines).document := rfl
      _ = (r.step line).document := run_detached detached plain
      _ = r.document := by rw [step]
  · cases other

/-! ## Lines that belong to a header -/

section Attached

variable {σ : Type} {h : Header} {within : σ → Reader} {feed : σ → Text → σ}

/-- Inside a construct, only the lines of content matter until a comment detaches them. -/
theorem run_attached
    (opened : ∀ s, ∃ nested, (within s).context = { h.context with nested := nested })
    (fed : ∀ s content, (within s).feed content = within (feed s content)) {lines : List Text}
    (plain : ∀ line ∈ lines, rootHeader? line = none)
    (attached : ∀ line ∈ lines, detaches h.kind line = false) (s : σ) :
    (within s).run lines = within ((lines.filterMap content?).foldl feed s) := by
  induction lines generalizing s with
  | nil => rfl
  | cons line lines ih =>
    have rest := ih (fun l hl => plain l (List.mem_cons_of_mem line hl))
      (fun l hl => attached l (List.mem_cons_of_mem line hl))
    have first : (within s).step line = within ((content? line).toList.foldl feed s) := by
      rw [step_form]
      cases shape : form line with
      | header header =>
        have header_free := plain line List.mem_cons_self
        simp [rootHeader?, shape] at header_free
      | comment announced =>
        have own := attached line List.mem_cons_self
        obtain ⟨nested, context⟩ := opened s
        have same : (within s).context.announce announced = (within s).context := by
          cases announced with
          | none => rfl
          | some kind =>
            obtain rfl : kind = h.kind := by simpa [detaches, shape] using own
            rw [context, announce_own]
        simp [content?, shape, same]
      | content text => simp [content?, shape, fed]
      | idle => simp [content?, shape]
    calc (within s).run (line :: lines)
        = ((within s).step line).run lines := rfl
      _ = (within ((content? line).toList.foldl feed s)).run lines := by rw [first]
      _ = within ((lines.filterMap content?).foldl feed ((content? line).toList.foldl feed s)) :=
        rest _
      _ = within (((line :: lines).filterMap content?).foldl feed s) := by
        rw [List.filterMap_cons]
        cases content? line <;> rfl

/-- What a header owns adds to the document as far as it is not detached. -/
theorem run_owned
    (opened : ∀ s, ∃ nested, (within s).context = { h.context with nested := nested })
    (fed : ∀ s content, (within s).feed content = within (feed s content)) {owned : List Text}
    (plain : ∀ line ∈ owned, rootHeader? line = none) (s : σ) :
    ((within s).run owned).document = (within ((body h.kind owned).foldl feed s)).document := by
  -- Up to the first detaching comment the lines count; from there on nothing is open.
  have split := List.takeWhile_append_dropWhile (p := fun line => !detaches h.kind line) (l := owned)
  have front : (within s).run (owned.takeWhile fun line => !detaches h.kind line) =
      within ((body h.kind owned).foldl feed s) := by
    refine run_attached opened fed (fun l hl => plain l ?_) (fun l hl => ?_) s
    · exact (List.takeWhile_sublist _).subset hl
    · simpa using List.all_eq_true.1 List.all_takeWhile l hl
  obtain ⟨nested, context⟩ := opened ((body h.kind owned).foldl feed s)
  have back : ∀ line ∈ owned.dropWhile (fun line => !detaches h.kind line), line ∈ owned :=
    fun line hl => (List.dropWhile_sublist _).subset hl
  have whole : (within s).run owned = (within ((body h.kind owned).foldl feed s)).run
      (owned.dropWhile fun line => !detaches h.kind line) := by
    rw [← front, ← Reader.run_append, split]
  rw [whole]
  cases rest : owned.dropWhile fun line => !detaches h.kind line with
  | nil => rfl
  | cons line lines =>
    rw [rest] at back
    have first := List.head?_dropWhile_not (fun line => !detaches h.kind line) owned
    rw [rest] at first
    exact run_detaching context (by simpa using first)
      (fun l hl => plain l (back l (List.mem_cons_of_mem line hl)))

end Attached

/-! ## What a section adds -/

/-- A line of content given to a block, together with the name of its open nested block. -/
def feedBlock (s : Option Text × Block) (content : Text) : Option Text × Block :=
  match nestedHeader? content with
  | some name => (some name, s.2.openNested name)
  | none => (s.1, Reader.addLine s.1 content s.2)

theorem foldl_feedBlock_props (b : Block) {lines : List Text}
    (plain : ∀ line ∈ lines, nestedHeader? line = none) :
    lines.foldl feedBlock (none, b) = (none, { b with props := b.props ++ lines }) := by
  induction lines generalizing b with
  | nil => simp
  | cons line lines ih =>
    have first : feedBlock (none, b) line = (none, b.addProp line) := by
      simp [feedBlock, plain line List.mem_cons_self, Reader.addLine]
    rw [List.foldl_cons, first, ih _ fun l hl => plain l (List.mem_cons_of_mem line hl)]
    simp [Block.addProp]

theorem foldl_feedBlock_nested (b : Block) (name : Text) (held : List Text) {lines : List Text}
    (plain : ∀ line ∈ lines, nestedHeader? line = none) :
    lines.foldl feedBlock (some name, { b with nested := b.nested.insert name held }) =
      (some name, { b with nested := b.nested.insert name (held ++ lines) }) := by
  induction lines generalizing held with
  | nil => simp
  | cons line lines ih =>
    have first : feedBlock (some name, { b with nested := b.nested.insert name held }) line =
        (some name, { b with nested := b.nested.insert name (held ++ [line]) }) := by
      simp [feedBlock, plain line List.mem_cons_self, Reader.addLine, Block.addNested,
        Table.get?_insert_self, Table.insert_insert]
    rw [List.foldl_cons, first, ih _ fun l hl => plain l (List.mem_cons_of_mem line hl)]
    simp

/-- Lines given to an empty block one by one make the block that they describe as a whole. -/
theorem foldl_feedBlock (lines : List Text) :
    (lines.foldl feedBlock (none, {})).2 = blockOf lines := by
  have partwise := foldl_parts nestedHeader? feedBlock Prod.snd
    (fun b part => { b with nested := b.nested.insert part.1 part.2 }) (by
      intro s line name owned opens closed
      have first : feedBlock s line = (some name, s.2.openNested name) := by simp [feedBlock, opens]
      rw [first, Block.openNested, foldl_feedBlock_nested s.2 name [] closed, List.nil_append])
    lines (none, {})
  have assigned (ps : List (Text × List Text)) (b : Block) :
      ps.foldl (fun b part => { b with nested := b.nested.insert part.1 part.2 }) b =
        { b with nested := b.nested.insertAll ps } := by
    induction ps generalizing b with
    | nil => rfl
    | cons p ps ih => rw [List.foldl_cons, ih]; rfl
  rw [partwise, foldl_feedBlock_props _ (none_of_mem_takeWhile nestedHeader? lines), assigned,
    blockOf, Table.ofList_eq_insertAll, List.nil_append]

/-- A document with the block of a component or a style rule in its place. -/
def Header.put : Header → Document → Block → Document
  | tokens _, d, _ => d
  | component name, d, b => { d with components := d.components.insert name b }
  | style selector, d, b => { d with styles := d.styles.insert selector b }

/-- The reader inside a component or a style rule. -/
def inBlock (h : Header) (d : Document) (s : Option Text × Block) : Reader where
  context := { h.context with nested := s.1 }
  document := h.put d s.2

theorem feed_inBlock {h : Header} (block : h.kind ≠ .tokens) (d : Document) (s : Option Text × Block)
    (content : Text) : (inBlock h d s).feed content = inBlock h d (feedBlock s content) := by
  cases nested : nestedHeader? content with
  | some name =>
    cases h with
    | tokens category => exact absurd rfl block
    | component | style =>
      simp [Reader.feed, feedBlock, nested, inBlock, Header.context, Reader.openNested, Header.put,
        Document.modifyComponent, Document.modifyStyle, Table.modify_insert]
  | none =>
    cases h with
    | tokens category => exact absurd rfl block
    | component | style =>
      simp [Reader.feed, feedBlock, nested, inBlock, Header.context, Reader.addContent, Header.put,
        Document.modifyComponent, Document.modifyStyle, Table.modify_insert]

theorem run_inBlock {h : Header} (block : h.kind ≠ .tokens) (d : Document) {owned : List Text}
    (plain : ∀ line ∈ owned, rootHeader? line = none) :
    ((inBlock h d (none, {})).run owned).document = h.put d (blockOf (body h.kind owned)) := by
  rw [run_owned (fun s => ⟨s.1, rfl⟩) (feed_inBlock block d) plain, inBlock, foldl_feedBlock]

theorem beforeColon?_eq_some_iff {t name : Text} :
    beforeColon? t = some name ↔ t = name ++ [':'] := by
  unfold beforeColon?
  constructor
  · intro h
    obtain ⟨colon, front⟩ := Option.ite_none_right_eq_some.1 h
    obtain ⟨u, rfl⟩ := List.getLast?_eq_some_iff.1 colon
    simpa using front
  · rintro rfl
    simp

/-- A nested header is no token: no blank stands in it. -/
theorem tokenValue?_of_nestedHeader {content name : Text} (h : nestedHeader? content = some name) :
    tokenValue? content = none := by
  obtain ⟨text, listed⟩ := Option.filter_eq_some_iff.1 h
  rw [beforeColon?_eq_some_iff] at text
  have all : ∀ block ∈ nestedBlocks, tokenValue? (block ++ [':']) = none := by decide
  rw [text]
  exact all name (by simpa using listed)

/-- The reader inside a token category. -/
def inTokens (category : Text) (d : Document) (t : Table Text) : Reader where
  context := (Header.tokens category).context
  document := { d with tokens := d.tokens.insert category t }

theorem feed_inTokens (category : Text) (d : Document) (t : Table Text) (content : Text) :
    (inTokens category d t).feed content =
      inTokens category d (t.insertAll (tokenValue? content).toList) := by
  cases nested : nestedHeader? content with
  | some name =>
    simp [Reader.feed, nested, tokenValue?_of_nestedHeader nested, Reader.openNested, inTokens,
      Header.context]
  | none =>
    cases value : tokenValue? content with
    | none => simp [Reader.feed, nested, value, Reader.addContent, inTokens, Header.context]
    | some token =>
      simp [Reader.feed, nested, value, Reader.addContent, inTokens, Header.context,
        Document.setToken, Table.modify_insert]

theorem foldl_insertAll (lines : List Text) (t : Table Text) :
    lines.foldl (fun t line => t.insertAll (tokenValue? line).toList) t =
      t.insertAll (lines.filterMap tokenValue?) := by
  induction lines generalizing t with
  | nil => rfl
  | cons line lines ih =>
    rw [List.foldl_cons, ih, List.filterMap_cons]
    cases tokenValue? line <;> rfl

theorem openCategory_eq (d : Document) (category : Text) :
    d.openCategory category =
      { d with tokens := d.tokens.insert category ((d.tokens.get? category).getD ∅) } := by
  unfold Document.openCategory
  cases found : d.tokens.get? category with
  | none => simp [Table.contains, found]
  | some t => simp [Table.contains, found, Table.insert_of_get? found]

/-- A section adds to the document what its header and its lines say, whatever was open before. -/
theorem run_section (r : Reader) (h : Header) {owned : List Text}
    (plain : ∀ line ∈ owned, rootHeader? line = none) :
    ((r.openRoot h).run owned).document = extend r.document (h, owned) := by
  cases h with
  | tokens category =>
    have opened : r.openRoot (.tokens category) =
        inTokens category r.document ((r.document.tokens.get? category).getD ∅) := by
      simp only [Reader.openRoot, inTokens, openCategory_eq]
    rw [opened, run_owned (h := .tokens category) (fun _ => ⟨none, rfl⟩)
      (feed_inTokens category r.document) plain, foldl_insertAll]
    rfl
  | component name =>
    have component : (Header.component name).kind ≠ .tokens := by simp [Header.kind]
    exact run_inBlock component r.document plain
  | style selector =>
    have style : (Header.style selector).kind ≠ .tokens := by simp [Header.kind]
    exact run_inBlock style r.document plain

theorem step_of_rootHeader? (r : Reader) {line : Text} {h : Header} (opens : rootHeader? line = some h) :
    r.step line = r.openRoot h := by
  unfold rootHeader? at opens
  rw [step_form]
  split at opens
  · rename_i header shape
    rw [shape, ← Option.some.inj opens]
  · cases opens

/-- Reading lines adds their sections one after another to what the lines in front of the first
header leave. -/
theorem run_sections (r : Reader) (lines : List Text) :
    (r.run lines).document = (parts rootHeader? lines).foldl extend
      (r.run (lines.takeWhile fun line => (rootHeader? line).isNone)).document := by
  -- A header starts afresh, so what was open before a section does not matter to it.
  refine foldl_parts rootHeader? Reader.step Reader.document extend ?_ lines r
  intro r line h owned opens plain
  rw [step_of_rootHeader? r opens]
  exact run_section r h plain

theorem run_before_header {lines : List Text} (plain : ∀ line ∈ lines, rootHeader? line = none) :
    (Reader.run {} lines).document = {} :=
  run_detached ⟨rfl, rfl, rfl⟩ plain

/-- A source describes the document that its sections describe one by one. -/
theorem parse_eq_sectionwise (source : Text) : parse source = sectionwise source := by
  have front : (Reader.run {} ((lines source).takeWhile fun l => (rootHeader? l).isNone)).document =
      {} := run_before_header (none_of_mem_takeWhile rootHeader? (lines source))
  rw [parse, run_sections, front, sectionwise]

/-- A component and a style rule with comments in them that announce their own kind and others. -/
def annotated : Text :=
  "component card:\n  bold\n  # Component tokens\n  italic\n  # Card STYLES\n  hidden\n" ++
    "p:\n  big\n  # style tokens\n  small\n# TOKENS\n  lost\n"

theorem parse_annotated :
    parse annotated =
      { components := .ofList [("card", { props := ["bold", "italic"] })]
        styles := .ofList [("p", { props := ["big", "small"] })] } := by
  rw [parse_eq_sectionwise]
  decide +kernel

end Source

end Stylesheet
