import Stylesheet.Compile
import Stylesheet.Proofs.ComponentGraph

/-!
# Components written out by hand

A line that uses a component can be replaced by the lines of the component, with their own uses of
further components left as they are. As long as the component does not come back to itself, nothing
changes, whatever other components do: the replacement changes which components are open around a
line, but only by one that is not met there.

* `expand_congr`: of the active components, only those that lines lead to count;
* `expand_swaps`: a use can be replaced by the lines of the component;
* `expand_insert`: also in the lines of another component, for all lines that lead there;
* `inPlace`: a document with its components in place, which has the same sheet;
* `css_inlined`: the replacement in a document.
-/

namespace Stylesheet

open Relation

namespace Component

variable {components : Table Block} {active lines after : List Text} {line name other : Text}
  {block held : Block}

theorem expand_append (front back : List Text) :
    expand components active (front ++ back) =
      expand components active front ++ expand components active back := by
  induction front with
  | nil => rw [expand_nil, List.nil_append, List.nil_append]
  | cons line front ih =>
    rw [List.cons_append]
    cases uses : reference? line with
    | none => rw [expand_plain uses, expand_plain uses, ih, List.cons_append]
    | some name =>
      cases defined : components.get? name with
      | none => rw [expand_undefined uses defined, expand_undefined uses defined, ih]
      | some block =>
        by_cases open_ : name ∈ active
        · rw [expand_active uses open_, expand_active uses open_, ih]
        · rw [expand_use uses defined open_, expand_use uses defined open_, ih, List.append_assoc]

/-- Whether a component is active counts only where it is met. -/
theorem expand_congr {active' : List Text}
    (same : ∀ name, LeadTo components lines name → (name ∈ active ↔ name ∈ active')) :
    expand components active lines = expand components active' lines := by
  have later {line : Text} {rest : List Text} {active active' : List Text}
      (same : ∀ name, LeadTo components (line :: rest) name → (name ∈ active ↔ name ∈ active')) :
      ∀ name, LeadTo components rest name → (name ∈ active ↔ name ∈ active') :=
    fun name h => same name (h.mono (List.subset_cons_self line rest))
  fun_induction expand components active lines generalizing active' with
  | case1 active => rw [expand_nil]
  | case2 active line rest plain ih => rw [expand_plain plain, ih (later same)]
  | case3 active line rest name uses undefined ih =>
    rw [expand_undefined uses undefined, ih (later same)]
  | case4 active line rest name uses block defined open_ ih =>
    have met := same name (.of_use List.mem_cons_self uses .refl)
    rw [expand_active uses (met.1 open_), ih (later same)]
  | case5 active line rest name uses block defined closed ih₁ ih₂ =>
    have met := same name (.of_use List.mem_cons_self uses .refl)
    rw [expand_use uses defined (mt met.2 closed), ih₂ (later same)]
    rw [ih₁ fun inner h => ?_]
    have outer := same inner (.of_use List.mem_cons_self uses (h.transGen defined).to_reflTransGen)
    rw [List.mem_cons, List.mem_cons, outer]

/-- One line of some lines uses a component and is replaced by the lines `props`. -/
def Swaps (name : Text) (props before after : List Text) : Prop :=
  ∃ front line back, reference? line = some name ∧ before = front ++ line :: back ∧
    after = front ++ props ++ back

theorem Swaps.leadTo {props before : List Text} (swap : Swaps name props before after) :
    LeadTo components before name := by
  obtain ⟨front, line, back, uses, rfl, -⟩ := swap
  exact .of_use (by simp) uses .refl

section Once

variable (defined : components.get? name = some block)
  (once : ¬ TransGen (Uses components) name name)
include defined once

/-- The lines of a component are the same with the component open and without. -/
theorem expand_open : expand components (name :: active) block.props =
    expand components active block.props := by
  refine expand_congr fun met h => ?_
  have other : met ≠ name := by
    rintro rfl
    exact once (h.transGen defined)
  rw [List.mem_cons, or_iff_right other]

theorem expand_swaps {before : List Text} (closed : name ∉ active)
    (swap : Swaps name block.props before after) :
    expand components active after = expand components active before := by
  obtain ⟨front, line, back, uses, rfl, rfl⟩ := swap
  rw [expand_append, expand_append, expand_append, expand_use uses defined closed,
    expand_open defined once, List.append_assoc]

/-- A use in a component `other` is replaced. Lines that lead there do so without the replaced
component being open. -/
theorem expand_insert (found : components.get? other = some held)
    (swap : Swaps name block.props held.props after) (active lines : List Text)
    (apart : name ∈ active → ¬ LeadTo components lines name) :
    expand (components.insert other { held with props := after }) active lines =
      expand components active lines := by
  have distinct : name ≠ other := by
    rintro rfl
    obtain rfl : block = held := Option.some.inj (defined.symm.trans found)
    exact once (swap.leadTo.transGen defined)
  have later {line : Text} {rest : List Text} {active : List Text}
      (apart : name ∈ active → ¬ LeadTo components (line :: rest) name) :
      name ∈ active → ¬ LeadTo components rest name :=
    fun open_ h => apart open_ (h.mono (List.subset_cons_self line rest))
  fun_induction expand (components.insert other { held with props := after }) active lines with
  | case1 active => rw [expand_nil]
  | case2 active line rest plain ih => rw [expand_plain plain, ih (later apart)]
  | case3 active line rest first uses undefined ih =>
    rw [Table.get?_insert] at undefined
    split at undefined
    · cases undefined
    · rw [expand_undefined uses undefined, ih (later apart)]
  | case4 active line rest first uses inner defined' open_ ih =>
    rw [expand_active uses open_, ih (later apart)]
  | case5 active line rest first uses inner defined' closed ih₁ ih₂ =>
    rw [Table.get?_insert] at defined'
    rw [ih₂ (later apart)]
    by_cases same : first = other
    · subst same
      obtain rfl : { held with props := after } = inner := by simpa using defined'
      have unopened : name ∉ first :: active := by
        have met : LeadTo components (line :: rest) name :=
          .of_use List.mem_cons_self uses (swap.leadTo.transGen found).to_reflTransGen
        have away : name ∉ active := fun open_ => apart open_ met
        simp [distinct, away]
      rw [expand_use uses found closed, ih₁ fun open_ => absurd open_ unopened,
        expand_swaps defined once unopened swap]
    · rw [if_neg same] at defined'
      rw [expand_use uses defined' closed, ih₁ fun open_ h => ?_]
      rcases List.mem_cons.1 open_ with rfl | open_
      · exact once (h.transGen defined')
      · exact apart open_ (.of_use List.mem_cons_self uses (h.transGen defined').to_reflTransGen)

end Once

end Component

/-! ## Documents with their components in place -/

def Block.inPlace (components : Table Block) (b : Block) : Block where
  props := Component.expand components [] b.props
  nested := b.nested.map (Component.expand components [])

/-- A document with its components in place, in all its blocks. -/
def Document.inPlace (d : Document) : Document where
  tokens := d.tokens
  components := d.components.map (.inPlace d.components)
  styles := d.styles.map (.inPlace d.components)

/-- Work on the entries of a table comes to the same after a change to its values that it does not
notice. -/
theorem mapM_entries_map {ε α β γ : Type} (change : α → β) (t : Table α) {f : Text × α → Except ε γ}
    {g : Text × β → Except ε γ} (same : ∀ e, g (e.1, change e.2) = f e) :
    (t.map change).entries.mapM g = t.entries.mapM f := by
  rw [← funext same]
  exact List.mapM_map

namespace Sheet

variable {tables : Token.Tables} {components components' : Table Block}

theorem declarations_inPlace (lines : List Text) :
    declarations tables components' (Component.expand components [] lines) =
      declarations tables components lines := by
  rw [declarations, Component.expand_eq_self _ _ fun _ => Component.reference?_of_mem_expand,
    declarations]

theorem ofNested_inPlace (selector : Text) (nested : Text × List Text) :
    ofNested tables components' selector (nested.1, Component.expand components [] nested.2) =
      ofNested tables components selector nested := by
  obtain ⟨key, lines⟩ := nested
  cases key with
  | nil => simp only [ofNested, declarations_inPlace]
  | cons c name =>
    by_cases width : c = '@'
    · subst width
      simp only [ofNested, declarations_inPlace]
    · have pseudo : ∀ rest, c :: name = '@' :: rest → False := by simp [width]
      rw [ofNested.eq_2 _ _ _ _ _ pseudo, ofNested.eq_2 _ _ _ _ _ pseudo, declarations_inPlace]

theorem ofStyle_inPlace (style : Text × Block) :
    ofStyle tables components' (style.1, style.2.inPlace components) =
      ofStyle tables components style := by
  simp only [ofStyle, Block.inPlace, declarations_inPlace]
  rw [mapM_entries_map _ _ (ofNested_inPlace _)]

theorem ofDocument_inPlace (overrides : Option Token.Tables) (d : Document) :
    ofDocument overrides d.inPlace = ofDocument overrides d := by
  have same : tables overrides d.inPlace = tables overrides d := rfl
  simp only [ofDocument, same]
  rw [Document.inPlace, mapM_entries_map _ _ ofStyle_inPlace]

end Sheet

theorem Document.css_inPlace (overrides : Option Token.Tables) (d : Document) :
    d.inPlace.css overrides = d.css overrides := by
  rw [css, css, Sheet.ofDocument_inPlace]

/-! ## Replacing a line of a document -/

namespace Document

/-- One line of a document that uses the component `name` gives way to the lines of `block`. The line
stands in a style rule, in a nested block of one, or in a component. -/
inductive Inlines (name : Text) (block : Block) (d : Document) : Document → Prop
  | style {selector : Text} {b : Block} {after : List Text}
      (found : d.styles.get? selector = some b)
      (swap : Component.Swaps name block.props b.props after) :
      Inlines name block d { d with styles := d.styles.insert selector { b with props := after } }
  | nested {selector key : Text} {b : Block} {lines after : List Text}
      (found : d.styles.get? selector = some b) (inner : b.nested.get? key = some lines)
      (swap : Component.Swaps name block.props lines after) :
      Inlines name block d
        { d with styles := d.styles.insert selector { b with nested := b.nested.insert key after } }
  | component {other : Text} {b : Block} {after : List Text}
      (found : d.components.get? other = some b)
      (swap : Component.Swaps name block.props b.props after) :
      Inlines name block d
        { d with components := d.components.insert other { b with props := after } }

variable {d d' : Document} {name : Text} {block : Block}
  (defined : d.components.get? name = some block)
  (once : ¬ TransGen (Component.Uses d.components) name name)
include defined once

theorem Inlines.expand_eq (h : Inlines name block d d') (lines : List Text) :
    Component.expand d'.components [] lines = Component.expand d.components [] lines := by
  cases h with
  | style => rfl
  | nested => rfl
  | component found swap =>
    exact Component.expand_insert defined once found swap [] lines (by simp)

theorem Inlines.inPlace_eq (h : Inlines name block d d') : d'.inPlace = d.inPlace := by
  have swapped {before after : List Text} (swap : Component.Swaps name block.props before after) :
      Component.expand d.components [] after = Component.expand d.components [] before :=
    Component.expand_swaps defined once (by simp) swap
  have same : Block.inPlace d'.components = Block.inPlace d.components := by
    funext b
    simp only [Block.inPlace, funext (h.expand_eq defined once)]
  rw [inPlace, inPlace, same]
  cases h with
  | style found swap =>
    rw [Table.map_insert_of_get? found]
    simp only [Block.inPlace, swapped swap]
  | nested found inner swap =>
    rw [Table.map_insert_of_get? found]
    simp only [Block.inPlace, Table.map_insert_of_get? inner (swapped swap)]
  | component found swap =>
    rw [Table.map_insert_of_get? found]
    simp only [Block.inPlace, swapped swap]

/-- A component is defined and its uses do not lead back to it. If a line that uses it gives way to the
lines of the component, then every list of lines comes to the same with components in place, every block
of the document does, and the document has the same CSS under any tokens. -/
theorem css_inlined (h : Inlines name block d d') :
    (∀ lines, Component.expand d'.components [] lines = Component.expand d.components [] lines) ∧
      d'.inPlace = d.inPlace ∧ ∀ overrides, d'.css overrides = d.css overrides := by
  have same := h.inPlace_eq defined once
  refine ⟨h.expand_eq defined once, same, fun overrides => ?_⟩
  rw [← css_inPlace, same, css_inPlace]

omit defined once

/-- A style rule with components, of which two use each other. -/
def woven : Document where
  components := .ofList
    [("card", { props := ["use edge", "pad 4"] }), ("edge", { props := ["bold", "use line"] }),
     ("line", { props := ["use edge", "underline"] }), ("page", { props := ["row", "use card"] })]
  styles := .ofList [("p", { props := ["use page"], nested := .ofList [("hover", ["use card"])] })]

/-- The document in which the component `page` has the lines of `card` in place of their use. -/
def unwoven : Document where
  components := woven.components.insert "page" { props := ["row", "use edge", "pad 4"] }
  styles := woven.styles

/-- The component `card` leads to the two that use each other, and not back to itself. -/
theorem css_unwoven : TransGen (Component.Uses woven.components) "edge" "edge" ∧
    ¬ TransGen (Component.Uses woven.components) "card" "card" ∧
    unwoven.inPlace = woven.inPlace ∧ ∀ overrides, unwoven.css overrides = woven.css overrides := by
  have inner : ∀ name ∈ (["card", "edge", "line"] : List Text),
      ∀ block ∈ woven.components.get? name, ∀ line ∈ block.props,
        ∀ other ∈ Component.reference? line, other ∈ (["edge", "line"] : List Text) := by
    decide +kernel
  have reached (name : Text) (chain : TransGen (Component.Uses woven.components) "card" name) :
      name ∈ (["edge", "line"] : List Text) := by
    induction chain with
    | single step =>
      obtain ⟨block, defined, line, hl, uses⟩ := step
      exact inner _ (by decide) block defined line hl _ uses
    | tail _ step ih =>
      obtain ⟨block, defined, line, hl, uses⟩ := step
      exact inner _ (List.mem_cons_of_mem _ ih) block defined line hl _ uses
  have once : ¬ TransGen (Component.Uses woven.components) "card" "card" :=
    fun chain => absurd (reached _ chain) (by decide)
  have to_line : Component.Uses woven.components "edge" "line" :=
    ⟨{ props := ["bold", "use line"] }, by decide +kernel, "use line", by decide, by decide +kernel⟩
  have to_edge : Component.Uses woven.components "line" "edge" :=
    ⟨{ props := ["use edge", "underline"] }, by decide +kernel, "use edge", by decide,
      by decide +kernel⟩
  have defined : woven.components.get? "card" = some { props := ["use edge", "pad 4"] } := by
    decide +kernel
  have found : woven.components.get? "page" = some { props := ["row", "use card"] } := by
    decide +kernel
  have swap : Component.Swaps "card" ["use edge", "pad 4"] ["row", "use card"]
      ["row", "use edge", "pad 4"] :=
    ⟨["row"], "use card", [], by decide +kernel, rfl, rfl⟩
  obtain ⟨-, blocks, css⟩ := css_inlined defined once (.component found swap)
  exact ⟨.tail (.single to_line) to_edge, once, blocks, css⟩

end Document

end Stylesheet
