import Stylesheet.Proofs.ColorWords

/-!
# The order of colors

A value that comes in for the name of a color is read by the passes for the colors behind it, so the
order of the table can be seen in the result. It cannot if no name stands as a word in the value of
another: then all names are replaced together.

* `placeNames_word`: what the passes make of a word;
* `Independent.placeNames_eq`: passes one after another replace all names together;
* `declare_congr`: behind the substitution, colors are not looked at any more;
* `resolve_reordered`: tables in different orders give the same.
-/

namespace Stylesheet

open Text Token

namespace Color

/-- Tables with nothing but colors. -/
def layer (colors : Table Text) : Tables :=
  (∅ : Tables).insert "colors" (colors.map .text)

theorem holdsTexts_layer (colors : Table Text) : HoldsTexts "colors" (layer colors) := by
  refine holdsTexts_insert (holdsTexts_empty "colors") "colors" fun _ e he => ?_
  obtain ⟨f, -, rfl⟩ := List.mem_map.1 he
  exact ⟨f.2, rfl⟩

theorem find?_layer (colors : Table Text) (category name : Text) :
    (layer colors).find? category name =
      if category = "colors".toList then (colors.get? name).map .text else none := by
  rw [Tables.find?, layer, Table.get?_insert]
  by_cases same : category = "colors".toList
  · rw [if_pos same, if_pos same, Option.bind_some, Table.get?_map]
  · rw [if_neg same, if_neg same]
    rfl

/-- Names are words, values are texts, and no name without a hyphen is a word in the value of another. -/
structure Independent (tables : Tables) : Prop where
  names : ∀ e ∈ (declared tables).entries, IsWord e.1
  texts : ∀ e ∈ (declared tables).entries, ∃ t, e.2 = .text t
  apart : ∀ e ∈ (declared tables).entries, ∀ f ∈ (declared tables).entries, '-' ∉ e.1 → '-' ∉ f.1 →
    e.1 ≠ f.1 → .word e.1 ∉ pieces f.2.render

/-- A word with its value in its place, if it is a name without a hyphen. -/
def namedWord (tables : Tables) (w : Text) : Text :=
  if w.contains '-' then w else ((tables.find? "colors" w).map Value.render).getD w

theorem find_declared (tables : Tables) (name : Text) :
    Table.find name (declared tables).entries = tables.find? "colors" name := by
  unfold declared Tables.find?
  cases tables.get? "colors" with
  | none => rfl
  | some table => rfl

theorem mem_declared_iff {tables : Tables} {e : Text × Value} :
    e ∈ (declared tables).entries ↔ tables.find? "colors" e.1 = some e.2 := by
  rw [← find_declared]
  exact ⟨Table.get?_of_mem, Table.mem_of_find⟩

theorem placeNames_word {colors : List (Text × Value)} (nodup : (colors.map Prod.fst).Nodup)
    (names : ∀ e ∈ colors, IsWord e.1)
    (apart : ∀ e ∈ colors, ∀ f ∈ colors, ¬ e.1.contains '-' = true → ¬ f.1.contains '-' = true →
      e.1 ≠ f.1 → .word e.1 ∉ pieces f.2.render) {w : Text} (word : IsWord w) :
    placeNames colors w =
      if w.contains '-' then w else ((Table.find w colors).map Value.render).getD w := by
  induction colors with
  | nil => simp [placeNames, Table.find]
  | cons e colors ih =>
    obtain ⟨first, later⟩ := List.forall_mem_cons.1 names
    obtain ⟨new, nodup⟩ := List.nodup_cons.1 nodup
    have rest := ih nodup later fun e he f hf =>
      apart e (List.mem_cons_of_mem _ he) f (List.mem_cons_of_mem _ hf)
    by_cases same : e.1 = w
    · subst same
      by_cases hyphen : e.1.contains '-' = true
      · rw [placeNames_hyphen hyphen, rest, if_pos hyphen, if_pos hyphen]
      · have kept : placeNames colors e.2.render = e.2.render := by
          refine placeNames_eq_self fun f hf plain => replaceWhole_eq_self (later f hf) _ ?_
          refine apart f (List.mem_cons_of_mem _ hf) e List.mem_cons_self plain hyphen fun same => ?_
          exact new (same ▸ List.mem_map_of_mem hf)
        rw [placeNames_pass hyphen, replaceWhole_word first _ word, if_pos rfl, kept, if_neg hyphen]
        simp [Table.find]
    · have skipped : placeNames (e :: colors) w = placeNames colors w := by
        by_cases hyphen : e.1.contains '-' = true
        · exact placeNames_hyphen hyphen
        · rw [placeNames_pass hyphen, replaceWhole_word first _ word, if_neg (Ne.symm same)]
      simp only [skipped, rest, Table.find, if_neg same]

namespace Independent

variable {tables tables' : Tables} (h : Independent tables)
include h

/-- Independence does not depend on the order of the entries. -/
theorem reordered
    (same : ∀ category name, tables'.find? category name = tables.find? category name) :
    Independent tables' := by
  have shared (e : Text × Value) :
      e ∈ (declared tables').entries ↔ e ∈ (declared tables).entries := by
    rw [mem_declared_iff, mem_declared_iff, same]
  constructor
  · exact fun e he => h.names e ((shared e).1 he)
  · exact fun e he => h.texts e ((shared e).1 he)
  · exact fun e he f hf => h.apart e ((shared e).1 he) f ((shared f).1 hf)

/-- Passes one after another replace all names together. -/
theorem placeNames_eq (line : Text) :
    placeNames (declared tables).entries line = mapWords (namedWord tables) line := by
  refine (wordwise_placeNames h.names).congr (wordwise_mapWords _) fun w word _ => ?_
  rw [mapWords_word _ word, namedWord, ← find_declared]
  refine placeNames_word (declared tables).nodup h.names (fun e he f hf plain plain' other => ?_) word
  exact h.apart e he f hf (by simpa using plain) (by simpa using plain') other

theorem resolve_eq (line : Text) :
    resolve tables line = .ok (mapWords (shownWord tables) (mapWords (namedWord tables) line)) := by
  rw [resolve_eq_place (holdsTexts_iff.2 h.texts), place, h.placeNames_eq]

end Independent

end Color

/-! ## Behind the substitution -/

variable {tables tables' : Tables}

theorem Token.lookup_congr {category : Text}
    (same : ∀ name, tables'.find? category name = tables.find? category name) (name : Text) :
    tables'.lookup category name = tables.lookup category name := by
  rw [Tables.lookup, Tables.lookup, same]

namespace Shorthand

/-- What a line with its colors in place stands for does not depend on the colors. -/
theorem declare_congr
    (same : ∀ category ≠ "colors".toList, ∀ name,
      tables'.lookup category name = tables.lookup category name) (line : Text) :
    ∀ s ∈ all, s.declare tables' line = s.declare tables line := by
  have shown (category : Text) (other : category ≠ "colors".toList) (name : Text) :
      tables'.show category name = tables.show category name := by
    rw [Tables.show, Tables.show, same category other]
  have sizes_eq (values : Text) : sizes tables' values = sizes tables values := by
    have each : tables'.textOf "sizes" = tables.textOf "sizes" := by
      funext name
      rw [Tables.textOf, Tables.textOf, same "sizes" (by decide)]
    rw [sizes, sizes, each]
  have fontSize_eq (name : Text) : fontSize tables' name = fontSize tables name := by
    rw [fontSize, fontSize, same "fontSize" (by decide)]
  have full : geometry.declare tables' line = geometry.declare tables line := by
    rw [geometry_declare, geometry_declare, size, size, shown "sizes" (by decide)]
  simp only [all, List.forall_mem_cons, List.not_mem_nil, false_implies, implies_true, and_true]
  and_intros
  all_goals
    first
    | exact full
    | rfl
    | simp only [spaced, sizes_eq]
    | simp only [fontSize_eq]
    | simp only [sized, scaled, size, shown "sizes" (by decide), shown "radius" (by decide),
        shown "shadows" (by decide)]

theorem expand_congr {line : Text}
    (colors : Color.resolve tables' line = Color.resolve tables line)
    (same : ∀ category ≠ "colors".toList, ∀ name,
      tables'.lookup category name = tables.lookup category name) :
    expand tables' line = expand tables line := by
  rw [expand, expand, colors]
  congr 1
  funext t
  cases found : find? t with
  | none => rfl
  | some s => simp only [declare_congr same t s (List.mem_of_find?_eq_some found)]

end Shorthand

/-- Names of colors are words, values are texts, and no name without a hyphen stands in the value of
another as a word; tables with the same values for all names, in whatever order, agree on every line.
Its words that are names without a hyphen are replaced together, and then those that are colors of the
palette, once. The line stands for the same declarations. -/
theorem resolve_reordered (independent : Color.Independent tables)
    (same : ∀ category name, tables'.find? category name = tables.find? category name)
    (line : Text) :
    ∃ t, Color.resolve tables line = .ok t ∧ Color.resolve tables' line = .ok t ∧
      Color.substitutePalette tables (Color.mapWords (Color.namedWord tables) line) = .ok t ∧
      Shorthand.expand tables' line = Shorthand.expand tables line := by
  have looked (category name : Text) : tables'.lookup category name = tables.lookup category name :=
    lookup_congr (same category) name
  have named : Color.namedWord tables' = Color.namedWord tables := by
    funext w
    rw [Color.namedWord, Color.namedWord, same]
  have shown : Color.shownWord tables' = Color.shownWord tables := by
    funext w
    rw [Color.shownWord, Color.shownWord, Tables.show, Tables.show, looked]
  have first := independent.resolve_eq line
  have second := (independent.reordered same).resolve_eq line
  rw [named, shown] at second
  refine ⟨_, first, second, Color.substitutePalette_eq (Color.holdsTexts_iff.2 independent.texts) _, ?_⟩
  exact Shorthand.expand_congr (second.trans first.symm) fun category _ name => looked category name

/-- Colors of which one is its own word, and one is a color of the palette. -/
def inks : Table Text := .ofList [("edge", "1px edge"), ("ink", "sea-500"), ("sea-500", "#0af")]

def inksBack : Table Text := .ofList [("sea-500", "#0af"), ("ink", "sea-500"), ("edge", "1px edge")]

theorem get?_inksBack (name : Text) : inksBack.get? name = inks.get? name := by
  by_cases edge : name = "edge"
  · exact edge ▸ by decide +kernel
  · by_cases ink : name = "ink"
    · exact ink ▸ by decide +kernel
    · by_cases sea : name = "sea-500"
      · exact sea ▸ by decide +kernel
      · simp only [inks, inksBack, Table.ofList, List.foldl_cons, List.foldl_nil, Table.get?_insert,
          edge, ink, sea, if_false]

theorem resolve_inks : Color.Independent (Color.layer inks) ∧ inksBack ≠ inks ∧
    Color.resolve (Color.layer inks) "border edge ink" = .ok "border 1px edge #0af" ∧
    Color.resolve (Color.layer inksBack) "border edge ink" = .ok "border 1px edge #0af" := by
  have independent : Color.Independent (Color.layer inks) :=
    ⟨by decide +kernel, Color.holdsTexts_iff.1 (Color.holdsTexts_layer inks), by decide +kernel⟩
  have same (category name : Text) :
      (Color.layer inksBack).find? category name = (Color.layer inks).find? category name := by
    rw [Color.find?_layer, Color.find?_layer, get?_inksBack]
  have line : Color.place (Color.layer inks) "border edge ink" = "border 1px edge #0af" := by
    decide +kernel
  obtain ⟨t, first, second, -, -⟩ := resolve_reordered independent same "border edge ink"
  rw [Color.resolve_eq_place (Color.holdsTexts_layer inks), line] at first
  cases first
  exact ⟨independent, by decide +kernel,
    (Color.resolve_eq_place (Color.holdsTexts_layer inks) _).trans (congrArg Except.ok line), second⟩

end Stylesheet
