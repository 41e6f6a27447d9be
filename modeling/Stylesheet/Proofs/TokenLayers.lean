import Mathlib.Data.List.Induction
import Stylesheet.Compile
import Stylesheet.Proofs.DocumentMerge

/-!
# Layers of tokens

Token tables are laid over each other, category by category and name by name. What comes out can be
said without going through the layers: the order is that of first appearance, and of several values for
a name the last one counts. So layers can be united before they are laid over the built-in tables.

* `IsUnion`: what layers say together, also about the order of categories and names;
* `IsUnion.overlay`: a layer over a union makes a union with one layer more;
* `IsUnion.unique`: layers have one union;
* `IsUnion.regroup`: layers over a table can be united first;
* `ofLayers_isUnion`: the tables that a document is compiled with.
-/

namespace Stylesheet

namespace Table

variable {α β : Type}

/-- The table of a category, without entries if the category is not there. -/
def under (t : Table (Table α)) (category : Text) : Table α :=
  (t.get? category).getD ∅

/-- Tables by category with others over them, name by name. -/
def stack (t u : Table (Table α)) : Table (Table α) :=
  t.mergeBy (fun known new => (known.getD ∅).merge new) u

theorem nodup_keys (t : Table α) : t.keys.Nodup := t.nodup

theorem keys_merge (t u : Table α) :
    (t.merge u).keys = t.keys ++ u.keys.filter (!t.keys.contains ·) := by
  rw [merge_eq_mergeBy, keys_mergeBy]

theorem get?_merge (t u : Table α) (key : Text) :
    (t.merge u).get? key = (u.get? key).or (t.get? key) := by
  rw [merge_eq_mergeBy, get?_mergeBy]
  cases u.get? key <;> rfl

theorem merge_empty (t : Table α) : t.merge ∅ = t := rfl

theorem keys_stack (t u : Table (Table α)) :
    (t.stack u).keys = t.keys ++ u.keys.filter (!t.keys.contains ·) :=
  keys_mergeBy _ t u

theorem under_stack (t u : Table (Table α)) (category : Text) :
    (t.stack u).under category = (t.under category).merge (u.under category) := by
  rw [under, stack, get?_mergeBy, under, under]
  cases u.get? category with
  | none => exact (merge_empty _).symm
  | some table => rfl

theorem mem_keys_iff {t : Table α} {key : Text} : key ∈ t.keys ↔ ∃ value, t.get? key = some value :=
  ⟨exists_get?_of_mem_keys, fun ⟨_, found⟩ => mem_keys_of_get? found⟩

/-- Tables by category are known from their categories and from the table of each. -/
theorem eq_of_under {t u : Table (Table α)} (keys : t.keys = u.keys)
    (same : ∀ category, t.under category = u.under category) : t = u := by
  refine eq_of_get? keys fun category => ?_
  have there : category ∈ t.keys ↔ category ∈ u.keys := by rw [keys]
  rw [mem_keys_iff, mem_keys_iff] at there
  have alike := same category
  unfold under at alike
  cases left : t.get? category with
  | none =>
    cases right : u.get? category with
    | none => rfl
    | some table => simp [left, right] at there
  | some table =>
    cases right : u.get? category with
    | none => simp [left, right] at there
    | some other => simpa [left, right] using alike

theorem map_foldl_insert (f : α → β) (t : Table α) (entries : List (Text × α)) :
    (entries.foldl (fun t e => t.insert e.1 e.2) t).map f =
      (entries.map fun e => (e.1, f e.2)).foldl (fun t e => t.insert e.1 e.2) (t.map f) := by
  induction entries generalizing t with
  | nil => rfl
  | cons e entries ih => rw [List.foldl_cons, ih, map_insert, List.map_cons, List.foldl_cons]

theorem map_merge (f : α → β) (t u : Table α) : (t.merge u).map f = (t.map f).merge (u.map f) :=
  map_foldl_insert f t u.entries

theorem keys_map (f : α → β) (t : Table α) : (t.map f).keys = t.keys :=
  map_fst_map f t.entries

theorem under_map (f : Table α → Table β) (empty : f ∅ = ∅) (t : Table (Table α)) (category : Text) :
    under (t.map f) category = f (t.under category) := by
  rw [under, under, get?_map]
  cases t.get? category with
  | none => exact empty.symm
  | some table => rfl

theorem empty_stack (t : Table (Table α)) : (∅ : Table (Table α)).stack t = t := by
  refine eq_of_under ?_ fun category => ?_
  · rw [keys_stack]
    exact List.filter_eq_self.2 fun _ _ => rfl
  · rw [under_stack]
    refine eq_of_get? ?_ fun name => ?_
    · rw [keys_merge]
      exact List.filter_eq_self.2 fun _ _ => rfl
    · rw [get?_merge]
      exact Option.or_none

end Table

namespace Token

open Table

/-! ## Tables that say what layers say -/

/-- What layers of tables say together. Categories, and the names of a category, stand in the order in
which they first appear in the layers, and a name has the value that the last layer with it gives. -/
structure IsUnion (layers : List Tables) (tables : Tables) : Prop where
  categories : tables.keys = (layers.flatMap keys).eraseDups
  names : ∀ category, (tables.under category).keys =
    (layers.flatMap fun layer => (layer.under category).keys).eraseDups
  values : ∀ category name, tables.find? category name =
    layers.reverse.findSome? (·.find? category name)

theorem find?_eq_under (tables : Tables) (category name : Text) :
    tables.find? category name = (tables.under category).get? name := by
  rw [Tables.find?, under]
  cases tables.get? category with
  | none => rfl
  | some table => rfl

theorem overlay_eq_stack (tables layer : Tables) : tables.overlay layer = stack tables layer := rfl

theorem find?_overlay (tables layer : Tables) (category name : Text) :
    (tables.overlay layer).find? category name =
      (layer.find? category name).or (tables.find? category name) := by
  simp only [find?_eq_under, overlay_eq_stack, under_stack, get?_merge]

/-! ## Order of first appearance -/

theorem eraseDups_concat (known : List Text) (key : Text) :
    (known ++ [key]).eraseDups = known.eraseDups ++ if key ∈ known then [] else [key] := by
  rw [List.eraseDups_append, List.removeAll]
  by_cases listed : key ∈ known <;> simp [listed, List.eraseDups_cons]

theorem eraseDups_append_eraseDups (known keys : List Text) :
    (known ++ keys.eraseDups).eraseDups = (known ++ keys).eraseDups := by
  induction keys using List.reverseRecOn with
  | nil => rfl
  | append_singleton keys key ih =>
    rw [eraseDups_concat, ← List.append_assoc, ← List.append_assoc, eraseDups_concat, ← ih]
    by_cases listed : key ∈ keys
    · simp [listed]
    · rw [if_neg listed, eraseDups_concat]
      simp

/-- Keys that come behind others count as far as they are new. -/
theorem eraseDups_append_keys (known : List Text) {keys : List Text} (h : keys.Nodup) :
    (known ++ keys).eraseDups = known.eraseDups ++ keys.filter (!known.eraseDups.contains ·) := by
  induction keys using List.reverseRecOn with
  | nil => simp
  | append_singleton keys key ih =>
    obtain ⟨nodup, -, apart⟩ := List.nodup_append.1 h
    have fresh : key ∉ keys := fun listed => apart key listed key (by simp) rfl
    rw [← List.append_assoc, eraseDups_concat, ih nodup, List.filter_append, List.append_assoc]
    by_cases listed : key ∈ known <;> simp [listed, fresh]

theorem eraseDups_keys {keys : List Text} (h : keys.Nodup) : keys.eraseDups = keys :=
  (eraseDups_append_keys [] h).trans (List.filter_eq_self.2 fun _ _ => rfl)

namespace IsUnion

variable {layers : List Tables} {tables tables' layer union : Tables}

theorem single (tables : Tables) : IsUnion [tables] tables where
  categories := by simpa using (eraseDups_keys tables.nodup_keys).symm
  names category := by simpa using (eraseDups_keys (tables.under category).nodup_keys).symm
  values category name := by simp

theorem empty : IsUnion [] ∅ := ⟨rfl, fun _ => rfl, fun _ _ => rfl⟩

theorem overlay (h : IsUnion layers tables) (layer : Tables) :
    IsUnion (layers ++ [layer]) (tables.overlay layer) where
  categories := by
    rw [overlay_eq_stack, keys_stack, h.categories, List.flatMap_append, List.flatMap_singleton,
      eraseDups_append_keys _ layer.nodup_keys]
  names category := by
    rw [overlay_eq_stack, under_stack, keys_merge, h.names, List.flatMap_append,
      List.flatMap_singleton, eraseDups_append_keys _ (layer.under category).nodup_keys]
  values category name := by
    rw [find?_overlay, h.values, List.reverse_append, List.reverse_singleton, List.singleton_append,
      List.findSome?_cons]
    cases layer.find? category name <;> rfl

/-- Layers laid over a union one after another make the union with all of them. -/
theorem foldl_overlay (h : IsUnion layers tables) (more : List Tables) :
    IsUnion (layers ++ more) (more.foldl Tables.overlay tables) := by
  induction more generalizing layers tables with
  | nil => simpa using h
  | cons layer more ih => simpa using ih (h.overlay layer)

/-- The order and the values leave nothing open. -/
theorem unique (h : IsUnion layers tables) (h' : IsUnion layers tables') : tables = tables' := by
  refine eq_of_under (h.categories.trans h'.categories.symm) fun category => ?_
  refine eq_of_get? ((h.names category).trans (h'.names category).symm) fun name => ?_
  rw [← find?_eq_under, ← find?_eq_under, h.values, h'.values]

/-- Layers over tables can be united before they are laid over them. -/
theorem regroup (united : IsUnion layers union) (h : IsUnion (layer :: layers) tables) :
    IsUnion [layer, union] tables where
  categories := by
    simp [h.categories, united.categories, eraseDups_append_eraseDups]
  names category := by
    simp [h.names, united.names, eraseDups_append_eraseDups]
  values category name := by
    rw [h.values, List.reverse_cons, List.findSome?_append, ← united.values]
    cases found : union.find? category name <;> simp [found]

end IsUnion

/-! ## Layers over the built-in tables -/

theorem ofLayers_eq_foldl (layers : List (Option Tables)) :
    Tables.ofLayers layers = (layers.filterMap id).foldl Tables.overlay defaults := by
  unfold Tables.ofLayers
  generalize defaults = tables
  induction layers generalizing tables with
  | nil => rfl
  | cons layer layers ih =>
    cases layer with
    | none => exact ih tables
    | some layer => exact ih (tables.overlay layer)

theorem isUnion_ofLayers (layers : List (Option Tables)) :
    IsUnion (defaults :: layers.filterMap id) (Tables.ofLayers layers) := by
  rw [ofLayers_eq_foldl]
  exact (IsUnion.single defaults).foldl_overlay _

theorem ofLayers_union {layers : List (Option Tables)} {union : Tables}
    (united : IsUnion (layers.filterMap id) union) :
    Tables.ofLayers [some union] = Tables.ofLayers layers :=
  (isUnion_ofLayers [some union]).unique (united.regroup (isUnion_ofLayers layers))

theorem lookup_eq_or (tables : Tables) (category name : Text) :
    tables.lookup category name = ((tables.find? category name).filter Value.isPresent).or
      ((defaults.find? category name).filter Value.isPresent) := by
  unfold Tables.lookup
  cases (tables.find? category name).filter Value.isPresent <;> rfl

theorem ofTexts_stack (t u : Table (Table Text)) :
    Tables.ofTexts (t.stack u) = (Tables.ofTexts t).overlay (Tables.ofTexts u) := by
  refine eq_of_under ?_ fun category => ?_
  · rw [overlay_eq_stack, keys_stack]
    simp only [Tables.ofTexts, keys_map, keys_stack]
  · rw [overlay_eq_stack, under_stack]
    simp only [Tables.ofTexts, under_map _ (by rfl : Table.map Value.text ∅ = ∅), under_stack,
      map_merge]

/-- The tokens of a source over given ones, as one table. -/
theorem isUnion_stack (given : Option (Table (Table Text))) (tokens : Table (Table Text)) :
    IsUnion ([given.map Tables.ofTexts, some (.ofTexts tokens)].filterMap id)
      (.ofTexts ((given.getD ∅).stack tokens)) := by
  cases given with
  | none =>
    rw [Option.getD_none, empty_stack]
    exact .single _
  | some given =>
    rw [Option.getD_some, ofTexts_stack]
    exact (IsUnion.single _).overlay _

end Token

open Token

/-- The tables of a document under given tokens are those of the document that has the given tokens
below its own. -/
theorem Sheet.tables_stack (given : Option (Table (Table Text))) (d : Document) :
    tables none { d with tokens := (given.getD ∅).stack d.tokens } =
      tables (given.map .ofTexts) d :=
  ofLayers_union (isUnion_stack given d.tokens)

/-- Layers, of which some may be missing, lie over the built-in tables. Categories and names stand in
the order in which they first appear, the built-in ones in front, and a name has the value of the last
layer with it, or else the built-in one. Looking a token up gives that value, or the built-in one where
it says nothing, as far as that says something. Layers have one union, which gives the same. So a
document compiles under given tokens that are texts as it does by itself with these below its own. -/
theorem ofLayers_isUnion (layers : List (Option Tables)) :
    IsUnion (defaults :: layers.filterMap id) (.ofLayers layers) ∧
      (∀ category name, (Tables.ofLayers layers).lookup category name =
        ((((layers.filterMap id).reverse.findSome? (·.find? category name)).or
          (defaults.find? category name)).filter Value.isPresent).or
          ((defaults.find? category name).filter Value.isPresent)) ∧
      (∃ union, (∀ tables, IsUnion (layers.filterMap id) tables ↔ tables = union) ∧
        Tables.ofLayers [some union] = Tables.ofLayers layers) ∧
      ∀ (given : Option (Table (Table Text))) (d : Document),
        d.css (given.map .ofTexts) =
          Document.css none { d with tokens := (given.getD ∅).stack d.tokens } := by
  refine ⟨isUnion_ofLayers layers, fun category name => ?_, ?_, ?_⟩
  · rw [lookup_eq_or, (isUnion_ofLayers layers).values, List.reverse_cons, List.findSome?_append]
    simp
  · have united : IsUnion (layers.filterMap id) ((layers.filterMap id).foldl Tables.overlay ∅) := by
      simpa using IsUnion.empty.foldl_overlay (layers.filterMap id)
    refine ⟨_, fun tables => ⟨fun h => h.unique united, ?_⟩, ofLayers_union united⟩
    rintro rfl
    exact united
  · intro given d
    simp only [Document.css, Sheet.ofDocument, Sheet.tables_stack]

end Stylesheet
