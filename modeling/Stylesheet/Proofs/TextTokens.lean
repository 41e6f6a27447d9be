import Stylesheet.Proofs.TableLaws
import Stylesheet.Sheet

/-!
# Tokens that are texts

A token whose value is a list of parts is refused where a text is needed. That can only happen to
colors and to sizes. If these are texts in all layers, every document has a sheet.

* `holdsTexts_ofLayers`: laying tables over each other keeps values texts;
* `expand_ok`: a property line can then be expanded, whatever it says;
* `ofDocument_ok`: and so can a whole document.
-/

namespace Stylesheet

section Succeed

variable {ε α β : Type}

theorem bind_ok {x : Except ε α} {f : α → Except ε β} {b : β} :
    (x >>= f) = .ok b ↔ ∃ a, x = .ok a ∧ f a = .ok b := by
  cases x with
  | error e => simp [bind, Except.bind]
  | ok a => simp [bind, Except.bind]

theorem mapM_ok {f : α → Except ε β} (xs : List α) (h : ∀ x ∈ xs, ∃ y, f x = .ok y) :
    ∃ ys, xs.mapM f = .ok ys := by
  induction xs with
  | nil => exact ⟨[], rfl⟩
  | cons x xs ih =>
    obtain ⟨y, first⟩ := h x List.mem_cons_self
    obtain ⟨ys, others⟩ := ih fun x' hx => h x' (List.mem_cons_of_mem x hx)
    refine ⟨y :: ys, ?_⟩
    rw [List.mapM_cons, first, others]
    rfl

theorem mem_of_mapM_ok {f : α → Except ε β} {xs : List α} {ys : List β} (h : xs.mapM f = .ok ys)
    {y : β} (hy : y ∈ ys) : ∃ x ∈ xs, f x = .ok y := by
  induction xs generalizing ys with
  | nil =>
    obtain rfl : [] = ys := Except.ok.inj h
    cases hy
  | cons x xs ih =>
    rw [List.mapM_cons] at h
    obtain ⟨z, first, h⟩ := bind_ok.1 h
    obtain ⟨zs, others, h⟩ := bind_ok.1 h
    obtain rfl : z :: zs = ys := Except.ok.inj h
    rcases List.mem_cons.1 hy with rfl | hy
    · exact ⟨x, List.mem_cons_self, first⟩
    · obtain ⟨x', hx, found⟩ := ih others hy
      exact ⟨x', List.mem_cons_of_mem x hx, found⟩

theorem foldlM_ok {f : β → α → Except ε β} {xs : List α}
    (h : ∀ b, ∀ x ∈ xs, ∃ c, f b x = .ok c) (b : β) : ∃ c, xs.foldlM f b = .ok c := by
  induction xs generalizing b with
  | nil => exact ⟨b, rfl⟩
  | cons x xs ih =>
    obtain ⟨next, first⟩ := h b x List.mem_cons_self
    obtain ⟨c, others⟩ := ih (fun b x' hx => h b x' (List.mem_cons_of_mem x hx)) next
    refine ⟨c, ?_⟩
    rw [List.foldlM_cons, first]
    exact others

end Succeed

namespace Token

def HoldsTexts (category : Text) (tables : Tables) : Prop :=
  ∀ table, tables.get? category = some table → ∀ e ∈ table.entries, ∃ t, e.2 = .text t

/-- The values of the categories that are needed as texts are texts. -/
def IsTextual (tables : Tables) : Prop :=
  HoldsTexts "colors" tables ∧ HoldsTexts "sizes" tables

theorem isTextual_of_none {tables : Tables} (h : (none : Option Tables) = some tables) :
    IsTextual tables := by
  cases h

theorem holdsTexts_insert {category : Text} {tables : Tables} (h : HoldsTexts category tables)
    (other : Text) {table : Table Value}
    (texts : other = category → ∀ e ∈ table.entries, ∃ t, e.2 = .text t) :
    HoldsTexts category (tables.insert other table) := by
  intro found
  rw [Table.get?_insert]
  by_cases same : category = other
  · simp only [same, if_true, Option.some.injEq]
    rintro rfl
    exact texts same.symm
  · simp only [same, if_false]
    exact h found

theorem holdsTexts_overlay {category : Text} {tables layer : Tables}
    (h : HoldsTexts category tables) (upper : HoldsTexts category layer) :
    HoldsTexts category (tables.overlay layer) := by
  have added : ∀ e ∈ layer.entries, e.1 = category → ∀ f ∈ e.2.entries, ∃ t, f.2 = .text t := by
    rintro e he rfl
    exact upper e.2 (Table.get?_of_mem he)
  unfold Tables.overlay
  generalize layer.entries = entries at added
  induction entries generalizing tables with
  | nil => exact h
  | cons e entries ih =>
    refine ih ?_ fun f hf => added f (List.mem_cons_of_mem e hf)
    refine holdsTexts_insert h e.1 fun same f hf => ?_
    rcases Table.mem_insertAll hf with new | known
    · exact added e List.mem_cons_self same f new
    · rw [same] at known
      cases found : tables.get? category with
      | none => simp [found, EmptyCollection.emptyCollection, Table.empty] at known
      | some table =>
        rw [found] at known
        exact h table found f known

theorem holdsTexts_empty (category : Text) : HoldsTexts category (∅ : Tables) := by
  intro table found
  cases found

theorem holdsTexts_ofTexts (category : Text) (tokens : Table (Table Text)) :
    HoldsTexts category (Tables.ofTexts tokens) := by
  intro table found e he
  obtain ⟨d, -, same⟩ := List.mem_map.1 (Table.mem_of_find found)
  obtain ⟨-, rfl⟩ := Prod.mk.inj same
  obtain ⟨f, -, rfl⟩ := List.mem_map.1 he
  exact ⟨f.2, rfl⟩

theorem holdsTexts_ofLayers {category : Text} (built_in : HoldsTexts category defaults)
    {layers : List (Option Tables)} (h : ∀ tables, some tables ∈ layers → HoldsTexts category tables) :
    HoldsTexts category (Tables.ofLayers layers) := by
  unfold Tables.ofLayers
  generalize defaults = tables at built_in
  induction layers generalizing tables with
  | nil => exact built_in
  | cons layer layers ih =>
    refine ih (fun t ht => h t (List.mem_cons_of_mem layer ht)) _ (holdsTexts_overlay built_in ?_)
    cases layer with
    | none => exact holdsTexts_empty category
    | some tables => exact h tables List.mem_cons_self

theorem mem_textTable {entries : List (Text × Text)} {e : Text × Value}
    (h : e ∈ (textTable entries).entries) : ∃ f ∈ entries, (f.1, Value.text f.2) = e := by
  obtain ⟨f, hf, same⟩ := List.mem_map.1 h
  rcases Table.mem_insertAll hf with hf | hf
  · exact ⟨f, hf, same⟩
  · cases hf

theorem isTextual_defaults : IsTextual defaults := by
  have texts {category : Text} (entries : List (Text × Text))
      (listed : defaults.get? category = some (textTable entries)) : HoldsTexts category defaults := by
    intro table found e he
    obtain rfl : textTable entries = table := Option.some.inj (listed.symm.trans found)
    obtain ⟨f, -, rfl⟩ := mem_textTable he
    exact ⟨f.2, rfl⟩
  exact ⟨texts colors rfl, texts sizes rfl⟩

theorem text_of_find? {category name : Text} {tables : Tables} (h : HoldsTexts category tables)
    {value : Value} (found : tables.find? category name = some value) : ∃ t, value = .text t := by
  obtain ⟨table, held, found⟩ := Option.bind_eq_some_iff.1 found
  exact h table held (name, value) (Table.mem_of_find found)

theorem textOf_ok {category : Text} {tables : Tables} (h : HoldsTexts category tables)
    (built_in : HoldsTexts category defaults) (name : Text) :
    ∃ t, tables.textOf category name = .ok t := by
  have text : ∀ value, tables.lookup category name = some value → ∃ t, value = .text t := by
    intro value found
    unfold Tables.lookup at found
    split at found
    · rename_i v own
      obtain rfl := Option.some.inj found
      exact text_of_find? h (Option.filter_eq_some_iff.1 own).1
    · exact text_of_find? built_in (Option.filter_eq_some_iff.1 found).1
  unfold Tables.textOf
  cases found : tables.lookup category name with
  | none => exact ⟨name, rfl⟩
  | some value =>
    obtain ⟨t, rfl⟩ := text value found
    exact ⟨t, rfl⟩

end Token

open Token

theorem Color.resolve_ok {tables : Tables} (h : IsTextual tables) (line : Text) :
    ∃ t, Color.resolve tables line = .ok t := by
  have texts : ∀ e ∈ ((tables.get? "colors").getD ∅).entries, ∃ t, e.2 = .text t := by
    cases found : tables.get? "colors" with
    | none => simp [EmptyCollection.emptyCollection, Table.empty]
    | some table => exact h.1 table found
  obtain ⟨named, names⟩ :
      ∃ t, Color.substituteNames ((tables.get? "colors").getD ∅).entries line = .ok t := by
    refine foldlM_ok (fun line e he => ?_) line
    obtain ⟨t, text⟩ := texts e he
    by_cases hyphen : e.1.contains '-' = true
    · exact ⟨line, by simp only [hyphen, if_true]⟩
    · exact ⟨_, by simp only [hyphen, text, Color.substitute]; rfl⟩
  obtain ⟨pieces, palette⟩ :
      ∃ ts, (Color.pieces named).mapM (Color.substitutePiece tables) = .ok ts := by
    refine mapM_ok _ fun piece _ => ?_
    cases piece with
    | separator c => exact ⟨[c], rfl⟩
    | word w =>
      by_cases palette : Color.isPaletteName w = true
      · simpa only [Color.substitutePiece, palette, if_true] using
          textOf_ok h.1 isTextual_defaults.1 w
      · exact ⟨w, by simp only [Color.substitutePiece, palette]; rfl⟩
  exact ⟨pieces.flatten, bind_ok.2 ⟨named, names, bind_ok.2 ⟨pieces, palette, rfl⟩⟩⟩

namespace Shorthand

theorem sizes_ok {tables : Tables} (h : IsTextual tables) (values : Text) :
    ∃ t, sizes tables values = .ok t := by
  obtain ⟨ts, found⟩ := mapM_ok (Text.split ' ' values)
    fun value _ => textOf_ok h.2 isTextual_defaults.2 value
  exact ⟨_, by rw [sizes, found]; rfl⟩

theorem declare_ok {tables : Tables} (h : IsTextual tables) (line : Text) :
    ∀ s ∈ all, ∃ ds, s.declare tables line = .ok ds := by
  have spacing (name : Text) (words : List Text) (property : Text) :
      ∃ ds, (spaced name words property).declare tables line = .ok ds := by
    obtain ⟨t, found⟩ := sizes_ok h (rest line)
    exact ⟨[⟨property, t⟩], bind_ok.2 ⟨t, found, rfl⟩⟩
  simp only [all, List.forall_mem_cons, List.not_mem_nil, false_implies, implies_true, and_true]
  -- Only padding and margin look at values that might not be texts.
  and_intros
  all_goals
    first
    | exact spacing _ _ _
    | exact ⟨_, rfl⟩

theorem expand_ok {tables : Tables} (h : IsTextual tables) (line : Text) :
    ∃ ds, expand tables line = .ok ds := by
  obtain ⟨resolved, colors⟩ := Color.resolve_ok h line
  cases found : find? resolved with
  | none => exact ⟨none, bind_ok.2 ⟨resolved, colors, by rw [found]; rfl⟩⟩
  | some s =>
    obtain ⟨ds, declared⟩ := declare_ok h resolved s (List.mem_of_find?_eq_some found)
    refine ⟨some ds, bind_ok.2 ⟨resolved, colors, ?_⟩⟩
    rw [found]
    exact bind_ok.2 ⟨ds, declared, rfl⟩

end Shorthand

namespace Sheet

theorem declarations_ok {tables : Tables} (h : IsTextual tables) (components : Table Block)
    (lines : List Text) : ∃ ds, declarations tables components lines = .ok ds := by
  obtain ⟨found, expanded⟩ := mapM_ok (Component.expand components [] lines)
    fun line _ => Shorthand.expand_ok h line
  exact ⟨_, bind_ok.2 ⟨found, expanded, rfl⟩⟩

theorem ofNested_ok {tables : Tables} (h : IsTextual tables) (components : Table Block)
    (selector : Text) (nested : Text × List Text) :
    ∃ s, ofNested tables components selector nested = .ok s := by
  obtain ⟨name, lines⟩ := nested
  obtain ⟨ds, found⟩ := declarations_ok h components lines
  unfold ofNested
  split <;> exact ⟨_, bind_ok.2 ⟨ds, by simp_all, rfl⟩⟩

theorem ofStyle_ok {tables : Tables} (h : IsTextual tables) (components : Table Block)
    (style : Text × Block) : ∃ s, ofStyle tables components style = .ok s := by
  obtain ⟨ds, own⟩ := declarations_ok h components style.2.props
  obtain ⟨ss, nested⟩ := mapM_ok style.2.nested.entries
    fun entry _ => ofNested_ok h components (formatSelector style.1) entry
  exact ⟨_, bind_ok.2 ⟨ds, own, bind_ok.2 ⟨ss, nested, rfl⟩⟩⟩

theorem isTextual_tables {overrides : Option Tables} (h : ∀ t, overrides = some t → IsTextual t)
    (d : Document) : IsTextual (tables overrides d) := by
  have layers (category : Text) (given : ∀ t, overrides = some t → HoldsTexts category t) :
      ∀ t, some t ∈ [overrides, some (.ofTexts d.tokens)] → HoldsTexts category t := by
    intro t ht
    simp only [List.mem_cons, Option.some.injEq, List.not_mem_nil, or_false] at ht
    rcases ht with ht | rfl
    · exact given t ht.symm
    · exact holdsTexts_ofTexts category d.tokens
  exact ⟨holdsTexts_ofLayers isTextual_defaults.1 (layers _ fun t ht => (h t ht).1),
    holdsTexts_ofLayers isTextual_defaults.2 (layers _ fun t ht => (h t ht).2)⟩

theorem ofDocument_ok {overrides : Option Tables} (h : ∀ t, overrides = some t → IsTextual t)
    (d : Document) : ∃ s, ofDocument overrides d = .ok s := by
  obtain ⟨ss, styles⟩ := mapM_ok d.styles.entries
    fun style _ => ofStyle_ok (isTextual_tables h d) d.components style
  exact ⟨_, bind_ok.2 ⟨ss, styles, rfl⟩⟩

end Sheet

end Stylesheet
