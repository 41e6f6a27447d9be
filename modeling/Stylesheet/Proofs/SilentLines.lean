import Stylesheet.Proofs.OpenConstructs
import Stylesheet.Proofs.TextTokens

/-!
# Lines that say nothing

A line is silent if it uses a component that is not defined, or if no shorthand accepts it. The blocks
of a document can be rid of silent lines, also of those in components that others use, and its sheet
stays the same.

* `expand_prune`: putting components in place and leaving out lines can be done in either order;
* `declarations_prune`: silent lines have no declarations;
* `ofDocument_prune`: nor does a sheet show them;
* `Reader.Alike.step`: readers whose documents differ in silent lines go on alike.
-/

namespace Stylesheet

/-! ## Putting components in place -/

namespace Component

variable {components : Table Block} {active : List Text} {line : Text} {lines : List Text}

theorem expand_nil : expand components active [] = [] := by
  rw [expand]

theorem expand_plain (h : reference? line = none) :
    expand components active (line :: lines) = line :: expand components active lines := by
  rw [expand, h]

theorem expand_undefined {name : Text} (h : reference? line = some name)
    (undefined : components.get? name = none) :
    expand components active (line :: lines) = expand components active lines := by
  rw [expand]
  simp only [h]
  split
  · rfl
  · rename_i found
    simp [undefined] at found

theorem expand_active {name : Text} (h : reference? line = some name) (open_ : name ∈ active) :
    expand components active (line :: lines) = expand components active lines := by
  rw [expand]
  simp only [h]
  split
  · rfl
  · rw [if_pos open_]

theorem expand_use {name : Text} {block : Block} (h : reference? line = some name)
    (defined : components.get? name = some block) (closed : name ∉ active) :
    expand components active (line :: lines) =
      expand components (name :: active) block.props ++ expand components active lines := by
  rw [expand]
  simp only [h]
  split
  · rename_i missing
    simp [defined] at missing
  · rename_i found
    obtain rfl := Option.some.inj (defined.symm.trans found)
    rw [if_neg closed]

theorem expand_eq_self (components : Table Block) (active : List Text) {lines : List Text}
    (h : ∀ line ∈ lines, reference? line = none) : expand components active lines = lines := by
  induction lines with
  | nil => rw [expand]
  | cons line lines ih =>
    rw [expand, h line List.mem_cons_self]
    simp only [ih fun l hl => h l (List.mem_cons_of_mem line hl)]

/-- Of the lines that use components, none is left. -/
theorem reference?_of_mem_expand (h : line ∈ expand components active lines) :
    reference? line = none := by
  fun_induction expand components active lines with
  | case1 => cases h
  | case2 active first rest plain ih =>
    rcases List.mem_cons.1 h with rfl | h
    · exact plain
    · exact ih h
  | case3 active first rest name uses undefined ih => exact ih h
  | case4 active first rest name uses block defined open_ ih => exact ih h
  | case5 active first rest name uses block defined closed ih₁ ih₂ =>
    rcases List.mem_append.1 h with inner | later
    · exact ih₁ inner
    · exact ih₂ later

end Component

/-! ## Leaving out silent lines -/

def Block.prune (left_out : Text → Bool) (b : Block) : Block where
  props := b.props.filter (!left_out ·)
  nested := b.nested.map (·.filter (!left_out ·))

/-- A document without some lines in its components and style rules. -/
def Document.prune (left_out : Text → Bool) (d : Document) : Document where
  tokens := d.tokens
  components := d.components.map (.prune left_out)
  styles := d.styles.map (.prune left_out)

/-- A line uses a component that is not defined, or no shorthand accepts it. -/
def IsSilent (tables : Token.Tables) (components : Table Block) (line : Text) : Prop :=
  (∃ name, Component.reference? line = some name ∧ components.contains name = false) ∨
    (Component.reference? line = none ∧ Shorthand.expand tables line = .ok none)

/-- Elements that give nothing can be left out of those whose results are strung together. -/
theorem mapM_filter {ε α β : Type} {f : α → Except ε (Option (List β))} {left_out : α → Bool}
    {xs : List α} (silent : ∀ x ∈ xs, left_out x = true → f x = .ok none)
    {found : List (Option (List β))} (h : xs.mapM f = .ok found) :
    ∃ kept, (xs.filter (!left_out ·)).mapM f = .ok kept ∧
      (kept.map (·.getD [])).flatten = (found.map (·.getD [])).flatten := by
  induction xs generalizing found with
  | nil => exact ⟨found, h, rfl⟩
  | cons x xs ih =>
    rw [List.mapM_cons] at h
    obtain ⟨y, first, h⟩ := bind_ok.1 h
    obtain ⟨ys, others, h⟩ := bind_ok.1 h
    obtain rfl : y :: ys = found := Except.ok.inj h
    obtain ⟨kept, rest, same⟩ := ih (fun z hz => silent z (List.mem_cons_of_mem x hz)) others
    cases left : left_out x with
    | true =>
      obtain rfl : none = y := Except.ok.inj ((silent x List.mem_cons_self left).symm.trans first)
      exact ⟨kept, by rw [List.filter_cons_of_neg (by simp [left]), rest], by simpa using same⟩
    | false =>
      refine ⟨y :: kept, ?_, by simp [same]⟩
      rw [List.filter_cons_of_pos (by simp [left]), List.mapM_cons, first, rest]
      rfl

/-- Elements that are changed so that their results stay the same give the same results together. -/
theorem mapM_map {ε α β γ : Type} {f : α → Except ε γ} {g : β → Except ε γ} {change : α → β}
    (same : ∀ x y, f x = .ok y → g (change x) = .ok y) {xs : List α} {ys : List γ}
    (h : xs.mapM f = .ok ys) : (xs.map change).mapM g = .ok ys := by
  induction xs generalizing ys with
  | nil => exact h
  | cons x xs ih =>
    rw [List.mapM_cons] at h
    obtain ⟨z, first, h⟩ := bind_ok.1 h
    obtain ⟨zs, others, h⟩ := bind_ok.1 h
    obtain rfl : z :: zs = ys := Except.ok.inj h
    rw [List.map_cons, List.mapM_cons, same x z first, ih others]
    rfl

section Prune

variable {left_out : Text → Bool} {tables : Token.Tables} {components : Table Block}
  (silent : ∀ line, left_out line = true → IsSilent tables components line)
include silent

theorem undefined_of_silent {line name : Text} (left : left_out line = true)
    (uses : Component.reference? line = some name) : components.get? name = none := by
  rcases silent line left with ⟨other, same, undefined⟩ | ⟨plain, -⟩
  · obtain rfl := Option.some.inj (uses.symm.trans same)
    simpa [Table.contains] using undefined
  · rw [uses] at plain
    cases plain

theorem expand_prune (active lines : List Text) :
    Component.expand (components.map (.prune left_out)) active (lines.filter (!left_out ·)) =
      (Component.expand components active lines).filter (!left_out ·) := by
  fun_induction Component.expand components active lines with
  | case1 active => exact Component.expand_nil
  | case2 active line rest plain ih =>
    cases left : left_out line with
    | true => simpa [left] using ih
    | false => simp [left, Component.expand_plain plain, ih]
  | case3 active line rest name uses undefined ih =>
    have gone : (components.map (Block.prune left_out)).get? name = none := by
      simp [Table.get?_map, undefined]
    cases left : left_out line with
    | true => simpa [left] using ih
    | false => simpa [left, Component.expand_undefined uses gone] using ih
  | case4 active line rest name uses block defined open_ ih =>
    cases left : left_out line with
    | true => simpa [left] using ih
    | false => simpa [left, Component.expand_active uses open_] using ih
  | case5 active line rest name uses block defined closed ih₁ ih₂ =>
    have kept : left_out line = false := by
      cases left : left_out line with
      | false => rfl
      | true =>
        have undefined := undefined_of_silent silent left uses
        simp [defined] at undefined
    have there : (components.map (Block.prune left_out)).get? name = some (block.prune left_out) := by
      simp [Table.get?_map, defined]
    rw [List.filter_cons_of_pos (by simp [kept]), Component.expand_use uses there closed, ih₂,
      List.filter_append, ← ih₁]
    rfl

namespace Sheet

theorem declarations_prune {lines : List Text} {ds : List Declaration}
    (h : declarations tables components lines = .ok ds) :
    declarations tables (components.map (.prune left_out)) (lines.filter (!left_out ·)) = .ok ds := by
  obtain ⟨found, expanded, rest⟩ := bind_ok.1 h
  -- No line that uses a component is left, so what is left out here is accepted by no shorthand.
  have nothing : ∀ line ∈ Component.expand components [] lines, left_out line = true →
      Shorthand.expand tables line = .ok none := by
    intro line there left
    have plain := Component.reference?_of_mem_expand there
    rcases silent line left with ⟨name, uses, -⟩ | ⟨-, none⟩
    · rw [plain] at uses
      cases uses
    · exact none
  obtain ⟨kept, pruned, same⟩ := mapM_filter nothing expanded
  refine bind_ok.2 ⟨kept, ?_, ?_⟩
  · rw [expand_prune silent]
    exact pruned
  · rw [same]
    exact rest

theorem ofNested_prune {selector : Text} {nested : Text × List Text} {s : Sheet}
    (h : ofNested tables components selector nested = .ok s) :
    ofNested tables (components.map (.prune left_out)) selector
      (nested.1, nested.2.filter (!left_out ·)) = .ok s := by
  unfold ofNested at h
  split at h
  · obtain ⟨ds, found, rest⟩ := bind_ok.1 h
    exact bind_ok.2 ⟨ds, declarations_prune silent found, rest⟩
  · rename_i name lines pseudo
    obtain ⟨ds, found, rest⟩ := bind_ok.1 h
    rw [ofNested.eq_2 _ _ _ _ _ pseudo]
    exact bind_ok.2 ⟨ds, declarations_prune silent found, rest⟩

theorem ofStyle_prune {style : Text × Block} {s : Sheet}
    (h : ofStyle tables components style = .ok s) :
    ofStyle tables (components.map (.prune left_out)) (style.1, style.2.prune left_out) = .ok s := by
  obtain ⟨ds, own, h⟩ := bind_ok.1 h
  obtain ⟨ss, nested, rest⟩ := bind_ok.1 h
  refine bind_ok.2 ⟨ds, declarations_prune silent own, bind_ok.2 ⟨ss, ?_, rest⟩⟩
  exact mapM_map (fun _ _ => ofNested_prune silent) nested

end Sheet

end Prune

/-- A document without silent lines has the same sheet. -/
theorem Sheet.ofDocument_prune {overrides : Option Token.Tables} {left_out : Text → Bool}
    {d : Document} {s : Sheet}
    (silent : ∀ line, left_out line = true → IsSilent (tables overrides d) d.components line)
    (h : ofDocument overrides d = .ok s) : ofDocument overrides (d.prune left_out) = .ok s := by
  obtain ⟨ss, styles, rest⟩ := bind_ok.1 h
  exact bind_ok.2 ⟨ss, mapM_map (fun _ _ => ofStyle_prune silent) styles, rest⟩

/-! ## Reading with and without silent lines -/

section Alike

variable {left_out : Text → Bool}

theorem prune_openNested (b : Block) (name : Text) :
    (b.openNested name).prune left_out = (b.prune left_out).openNested name := by
  simp [Block.openNested, Block.prune, Table.map_insert]

theorem prune_addProp (b : Block) (line : Text) :
    (b.addProp line).prune left_out =
      { b.prune left_out with
        props := (b.prune left_out).props ++ [line].filter (!left_out ·) } := by
  simp [Block.addProp, Block.prune]

theorem prune_addNested (b : Block) (name line : Text) :
    (b.addNested name line).prune left_out =
      { b.prune left_out with
        nested := (b.prune left_out).nested.insert name
          (((b.prune left_out).nested.get? name).getD [] ++ [line].filter (!left_out ·)) } := by
  cases held : b.nested.get? name <;>
    simp [Block.addNested, Block.prune, Table.map_insert, Table.get?_map, held]

/-- Blocks that differ in lines left out still do after a further line. -/
theorem prune_addLine_congr {b c : Block} (h : b.prune left_out = c.prune left_out)
    (nested : Option Text) (line : Text) :
    (Source.Reader.addLine nested line b).prune left_out =
      (Source.Reader.addLine nested line c).prune left_out := by
  cases nested with
  | none => simp only [Source.Reader.addLine, prune_addProp, h]
  | some name => simp only [Source.Reader.addLine, prune_addNested, h]

/-- A line that is left out adds nothing to a block, if the nested block that it goes to is there. -/
theorem prune_addLine_of_left_out {s : Option Text × Block} (held : Source.HoldsOpen s) {line : Text}
    (left : left_out line = true) :
    (Source.Reader.addLine s.1 line s.2).prune left_out = s.2.prune left_out := by
  obtain ⟨nested, b⟩ := s
  cases nested with
  | none => simp [Source.Reader.addLine, prune_addProp, left]
  | some name =>
    obtain ⟨lines, found⟩ := Table.exists_get?_of_mem_keys (held name rfl)
    have there : (b.prune left_out).nested.get? name = some (lines.filter (!left_out ·)) := by
      simp [Block.prune, Table.get?_map, found]
    simp [Source.Reader.addLine, prune_addNested, there, left, Table.insert_of_get? there]

namespace Source

/-- Two readers have the same open, and their documents differ only in lines left out. -/
structure Reader.Alike (left_out : Text → Bool) (r r' : Reader) : Prop where
  context : r.context = r'.context
  document : r.document.prune left_out = r'.document.prune left_out

theorem alike_openRoot {r r' : Reader} (h : r.Alike left_out r') (header : Header) :
    (r.openRoot header).Alike left_out (r'.openRoot header) := by
  refine ⟨rfl, ?_⟩
  obtain ⟨tokens, components, styles⟩ := Document.mk.inj h.document
  cases header with
  | tokens category =>
    simp only [Reader.openRoot, openCategory_eq, Document.prune, tokens, components, styles]
  | component name =>
    simp only [Reader.openRoot, Document.openComponent, Document.prune, Table.map_insert, tokens,
      components, styles]
  | style selector =>
    simp only [Reader.openRoot, Document.openStyle, Document.prune, Table.map_insert, tokens,
      components, styles]

theorem prune_modifyComponent {d d' : Document} (h : d.prune left_out = d'.prune left_out)
    (name : Text) {f : Block → Block}
    (hf : ∀ b c : Block, b.prune left_out = c.prune left_out →
      (f b).prune left_out = (f c).prune left_out) :
    (d.modifyComponent name f).prune left_out = (d'.modifyComponent name f).prune left_out := by
  obtain ⟨tokens, components, styles⟩ := Document.mk.inj h
  simp only [Document.modifyComponent, Document.prune, Table.map_modify_congr hf components, tokens,
    styles]

theorem prune_modifyStyle {d d' : Document} (h : d.prune left_out = d'.prune left_out)
    (selector : Text) {f : Block → Block}
    (hf : ∀ b c : Block, b.prune left_out = c.prune left_out →
      (f b).prune left_out = (f c).prune left_out) :
    (d.modifyStyle selector f).prune left_out = (d'.modifyStyle selector f).prune left_out := by
  obtain ⟨tokens, components, styles⟩ := Document.mk.inj h
  simp only [Document.modifyStyle, Document.prune, Table.map_modify_congr hf styles, tokens,
    components]

theorem alike_openNested {r r' : Reader} (h : r.Alike left_out r') (name : Text) :
    (r.openNested name).Alike left_out (r'.openNested name) := by
  obtain ⟨⟨state, category, component, selector, nested⟩, d⟩ := r
  obtain ⟨context', d'⟩ := r'
  obtain ⟨rfl, document⟩ := h
  have opened : ∀ b c : Block, b.prune left_out = c.prune left_out →
      (b.openNested name).prune left_out = (c.openNested name).prune left_out := by
    intro b c same
    rw [prune_openNested, prune_openNested, same]
  -- Which block is changed depends on what is open, which both readers agree on.
  rcases state with _ | _ | _ | _ <;> cases component <;> cases selector <;>
    first
    | exact ⟨rfl, document⟩
    | exact ⟨rfl, prune_modifyComponent document _ opened⟩
    | exact ⟨rfl, prune_modifyStyle document _ opened⟩

theorem alike_addContent {r r' : Reader} (h : r.Alike left_out r') (content : Text) :
    (r.addContent content).Alike left_out (r'.addContent content) := by
  obtain ⟨⟨state, category, component, selector, nested⟩, d⟩ := r
  obtain ⟨context', d'⟩ := r'
  obtain ⟨rfl, document⟩ := h
  have added : ∀ b c : Block, b.prune left_out = c.prune left_out →
      (Reader.addLine nested content b).prune left_out =
        (Reader.addLine nested content c).prune left_out :=
    fun b c same => prune_addLine_congr same nested content
  rcases state with _ | _ | _ | _
  · exact ⟨rfl, document⟩
  · obtain ⟨tokens, components, styles⟩ := Document.mk.inj document
    cases category with
    | none => exact ⟨rfl, document⟩
    | some category =>
      cases value : tokenValue? content with
      | none => simpa [Reader.addContent, value] using ⟨rfl, document⟩
      | some token =>
        refine ⟨by simp [Reader.addContent, value], ?_⟩
        simp_all [Reader.addContent, Document.setToken, Document.prune]
  · cases component with
    | none => exact ⟨rfl, document⟩
    | some name => exact ⟨rfl, prune_modifyComponent document name added⟩
  · cases selector with
    | none => exact ⟨rfl, document⟩
    | some selector => exact ⟨rfl, prune_modifyStyle document selector added⟩

theorem Reader.Alike.step {r r' : Reader} (h : r.Alike left_out r') (line : Text) :
    (r.step line).Alike left_out (r'.step line) := by
  rw [step_form, step_form]
  cases form line with
  | header header => exact alike_openRoot h header
  | comment announced => exact ⟨congrArg (Context.announce · announced) h.context, h.document⟩
  | content text =>
    show (r.feed text).Alike left_out (r'.feed text)
    unfold Reader.feed
    split
    · exact alike_openNested h _
    · exact alike_addContent h text
  | idle => exact h

/-- A line that is left out of a component or a style rule leaves the reader alike. -/
theorem alike_feed_of_left_out {h : Header} (block : h.kind ≠ .tokens) (d : Document)
    {s : Option Text × Block} (held : HoldsOpen s) {content : Text}
    (plain : nestedHeader? content = none) (left : left_out content = true) :
    ((inBlock h d s).feed content).Alike left_out (inBlock h d s) := by
  have same := prune_addLine_of_left_out held left
  rw [feed_inBlock block, feedBlock, plain]
  refine ⟨rfl, ?_⟩
  cases h with
  | tokens category => exact absurd rfl block
  | component | style => simp [inBlock, Header.put, Document.prune, Table.map_insert, same]

end Source

end Alike

end Stylesheet
