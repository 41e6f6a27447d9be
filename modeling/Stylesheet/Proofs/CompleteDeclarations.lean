import Stylesheet.Proofs.MeantProperties
import Stylesheet.Proofs.TokenLayers

/-!
# Complete declarations

A declaration is complete if it names a property and sets it to something. Let no blank stand at the
ends of a line and of the values of tokens. Then none stands at the ends of the line with its colors in
place, so a shorthand that takes what stands behind a space finds something there. Only a property that
is written in full is also accepted with another blank behind it, and if the line has no space at all,
nothing is left for its value.

* `Tables.AreSolid`: tables whose values have something in them and no blanks at their ends;
* `isSolid_place`: colors in place leave no blank at the ends of a line;
* `Completes`: a shorthand finds a value for all that it sets, with `completes_all`;
* `find?_cramped`: the lines that have no space before their value;
* `expand_complete`: which lines stand for complete declarations.
-/

namespace Stylesheet

open Text Token

/-- A declaration that names a property and sets it to something. -/
structure Declaration.IsComplete (d : Declaration) : Prop where
  property : d.property ≠ []
  value : isBlankText d.value = false

theorem Declaration.isComplete_iff {d : Declaration} :
    d.IsComplete ↔ (!d.property.isEmpty && !isBlankText d.value) = true := by
  rw [Bool.and_eq_true, Bool.not_eq_true', Bool.not_eq_true', List.isEmpty_eq_false_iff]
  exact ⟨fun h => ⟨h.property, h.value⟩, fun h => ⟨h.1, h.2⟩⟩

instance (d : Declaration) : Decidable d.IsComplete := decidable_of_iff _ Declaration.isComplete_iff.symm

namespace Text

theorem isSolid_iff {t : Text} :
    IsSolid t ↔ (!t.isEmpty && t.head?.all (!isBlank ·) && t.getLast?.all (!isBlank ·)) = true := by
  simp only [Bool.and_eq_true, Bool.not_eq_true', List.isEmpty_eq_false_iff, Option.all_eq_true]
  exact ⟨fun h => ⟨⟨h.ne_nil, h.first⟩, h.last⟩, fun h => ⟨h.1.1, h.1.2, h.2⟩⟩

instance (t : Text) : Decidable (IsSolid t) := decidable_of_iff _ isSolid_iff.symm

theorem isBlankText_join (pieces : List Text) :
    isBlankText (join " " pieces) = pieces.all isBlankText := by
  induction pieces with
  | nil => rfl
  | cons first rest ih =>
    cases rest with
    | nil => simp [join]
    | cons second rest =>
      have space : isBlankText (" " : Text) = true := rfl
      rw [join_cons_cons, isBlankText_append, isBlankText_append, ih, space, Bool.and_true,
        ← List.all_cons]

/-- Behind a space of a text that does not end with a blank stands something. -/
theorem IsSolid.behind_space {a b : Text} (h : IsSolid (a ++ ' ' :: b)) : isBlankText b = false := by
  rw [Bool.eq_false_iff]
  intro blank
  have last := List.getLast?_eq_getLast_of_ne_nil (List.cons_ne_nil ' ' b)
  have shown : isBlank ((' ' :: b).getLast (List.cons_ne_nil ' ' b)) = false := by
    refine h.last _ ?_
    rw [List.getLast?_append_of_ne_nil a (List.cons_ne_nil ' ' b)]
    exact last
  have blanks : ∀ c ∈ ' ' :: b, isBlank c = true :=
    List.forall_mem_cons.2 ⟨by decide, isBlankText_iff.1 blank⟩
  cases shown.symm.trans (blanks _ (List.getLast_mem _))

theorem last_append {a b : Text} (ha : ∀ c ∈ a.getLast?, isBlank c = false)
    (hb : ∀ c ∈ b.getLast?, isBlank c = false) : ∀ c ∈ (a ++ b).getLast?, isBlank c = false := by
  intro c hc
  rw [List.getLast?_append, Option.mem_def, Option.or_eq_some_iff] at hc
  exact hc.elim (hb c) fun h => ha c h.2

end Text

namespace Token

/-! ## Tokens -/

/-- A value with something in it and no blank at its ends. That of a font size may be a pair. -/
inductive IsSolidValue (category : Text) : Value → Prop
  | text {t : Text} (solid : IsSolid t) : IsSolidValue category (.text t)
  | pair {size height : Text} (font : category = "fontSize".toList) (first : IsSolid size)
      (second : IsSolid height) : IsSolidValue category (.parts [size, height])

theorem IsSolidValue.isPresent {category : Text} {value : Value} (h : IsSolidValue category value) :
    value.isPresent = true := by
  cases h with
  | text solid => simp [Value.isPresent, solid.ne_nil]
  | pair => rfl

/-- All values of some tables have something in them and no blank at their ends. -/
def Tables.AreSolid (tables : Tables) : Prop :=
  ∀ category name value, tables.find? category name = some value → IsSolidValue category value

theorem areSolid_of_entries {tables : Tables}
    (h : ∀ e ∈ tables.entries, ∀ f ∈ e.2.entries, IsSolidValue e.1 f.2) : tables.AreSolid := by
  intro category name value found
  obtain ⟨table, held, found⟩ := Option.bind_eq_some_iff.1 found
  exact h _ (Table.mem_of_find held) _ (Table.mem_of_find found)

theorem areSolid_ofTexts {tokens : Table (Table Text)}
    (h : ∀ e ∈ tokens.entries, ∀ f ∈ e.2.entries, IsSolid f.2) : (Tables.ofTexts tokens).AreSolid := by
  refine areSolid_of_entries fun e he f hf => ?_
  obtain ⟨d, hd, rfl⟩ := List.mem_map.1 he
  obtain ⟨g, hg, rfl⟩ := List.mem_map.1 hf
  exact .text (h d hd g hg)

theorem areSolid_defaults : defaults.AreSolid := by
  have texts (category : Text) {entries : List (Text × Text)} (solid : ∀ e ∈ entries, IsSolid e.2) :
      ∀ f ∈ (textTable entries).entries, IsSolidValue category f.2 := by
    intro f hf
    obtain ⟨e, he, rfl⟩ := mem_textTable hf
    exact .text (solid e he)
  have pairs : ∀ f ∈ ((Table.ofList fontSizes).map Value.parts).entries,
      IsSolidValue "fontSize" f.2 := by
    have listed : ∀ e ∈ fontSizes, e.2.length = 2 ∧ ∀ t ∈ e.2, IsSolid t := by decide +kernel
    intro f hf
    obtain ⟨⟨name, parts⟩, he, rfl⟩ := List.mem_map.1 hf
    rcases Table.mem_insertAll he with he | he
    · obtain ⟨two, solid⟩ := listed _ he
      obtain ⟨size, height, rfl⟩ := List.length_eq_two.1 two
      exact .pair rfl (solid size (by simp)) (solid height (by simp))
    · cases he
  refine areSolid_of_entries ?_
  have listed : defaults.entries =
    [("colors".toList, textTable colors), ("sizes".toList, textTable sizes),
     ("fontSize".toList, (Table.ofList fontSizes).map .parts), ("radius".toList, textTable radii),
     ("shadows".toList, textTable shadows), ("breakpoints".toList, textTable breakpoints)] := rfl
  rw [listed]
  simp only [List.forall_mem_cons, List.not_mem_nil, false_implies, implies_true, and_true]
  exact ⟨texts _ (by decide +kernel), texts _ (by decide +kernel), pairs, texts _ (by decide +kernel),
    texts _ (by decide +kernel), texts _ (by decide +kernel)⟩

namespace Tables.AreSolid

variable {tables : Tables} (solid : tables.AreSolid) {category name : Text} {value : Value}
include solid

/-- No value is passed over in looking up a token. -/
theorem lookup_eq (category name : Text) : tables.lookup category name =
    (tables.find? category name).or (defaults.find? category name) := by
  have kept {t : Tables} (h : t.AreSolid) :
      (t.find? category name).filter Value.isPresent = t.find? category name := by
    cases found : t.find? category name with
    | none => rfl
    | some value => rw [Option.filter_some, if_pos (h _ _ _ found).isPresent]
  rw [lookup_eq_or, kept solid, kept areSolid_defaults]

theorem lookup (found : tables.lookup category name = some value) : IsSolidValue category value := by
  rw [solid.lookup_eq, Option.or_eq_some_iff] at found
  rcases found with own | ⟨-, built_in⟩
  · exact solid _ _ _ own
  · exact areSolid_defaults _ _ _ built_in

/-- What is shown of a token is its name, or a text with something in it. -/
theorem show_of {P : Text → Prop} (other : category ≠ "fontSize".toList)
    (all : ∀ t, IsSolid t → P t) (own : P name) : P (tables.show category name) := by
  rw [Tables.show]
  cases found : tables.lookup category name with
  | none => exact own
  | some value =>
    cases solid.lookup found with
    | text solid => exact all _ solid
    | pair font => exact absurd font other

theorem isBlankText_show (other : category ≠ "fontSize".toList) (some : isBlankText name = false) :
    isBlankText (tables.show category name) = false :=
  solid.show_of other (fun _ => IsSolid.isBlankText_eq_false) some

theorem holdsTexts (other : category ≠ "fontSize".toList) : HoldsTexts category tables := by
  intro table held e he
  have found : tables.find? category e.1 = some e.2 :=
    Option.bind_eq_some_iff.2 ⟨table, held, Table.get?_of_mem he⟩
  generalize e.2 = value at found ⊢
  cases solid _ _ _ found with
  | text => exact ⟨_, rfl⟩
  | pair font => exact absurd font other

theorem isTextual : IsTextual tables :=
  ⟨solid.holdsTexts (by decide), solid.holdsTexts (by decide)⟩

end Tables.AreSolid

end Token

/-! ## Colors in place -/

namespace Color

section Solid

variable {name value t : Text}

/-- Where a name stands, its value comes in. Of the empty name nothing is passed over. -/
theorem replaceWhole_cons (name value : Text) (after : Bool) (c : Char) (t : Text) :
    replaceWhole name value after 0 (c :: t) =
      if standsAt name after (c :: t) then
        value ++ if name = [] then c :: replaceWhole name value (isNameChar c) 0 t
          else replaceWhole name value (isNameChar c) (name.length - 1) t
      else c :: replaceWhole name value (isNameChar c) 0 t := by
  cases name <;> simp [replaceWhole]

theorem replaceWhole_ne_nil (some : value ≠ []) (there : t ≠ []) (after : Bool) :
    replaceWhole name value after 0 t ≠ [] := by
  obtain ⟨c, t, rfl⟩ := List.exists_cons_of_ne_nil there
  rw [replaceWhole_cons]
  split <;> simp [some]

/-- The end of a text without a blank there stays so, whatever is still passed over. -/
theorem last_replaceWhole (solid : IsSolid value) (after : Bool) (skip : Nat)
    (last : ∀ c ∈ t.getLast?, isBlank c = false) :
    ∀ c ∈ (replaceWhole name value after skip t).getLast?, isBlank c = false := by
  induction t generalizing after skip with
  | nil =>
    cases skip with
    | succ skip => simp [replaceWhole]
    | zero =>
      rw [replaceWhole]
      split
      · exact solid.last
      · simp
  | cons c t ih =>
    have later : ∀ d ∈ t.getLast?, isBlank d = false := fun d hd =>
      last d (by rw [List.getLast?_cons, Option.mem_def.1 hd]; rfl)
    cases skip with
    | succ skip =>
      rw [replaceWhole]
      exact ih (isNameChar c) skip later
    | zero =>
      -- A character that is kept is the last one only where it was so before.
      have kept : ∀ d ∈ (c :: replaceWhole name value (isNameChar c) 0 t).getLast?,
          isBlank d = false := by
        by_cases there : t = []
        · subst there
          exact last_append last (ih (isNameChar c) 0 later)
        · intro d hd
          refine ih (isNameChar c) 0 later d ?_
          rwa [← List.singleton_append,
            List.getLast?_append_of_ne_nil _ (replaceWhole_ne_nil solid.ne_nil there _)] at hd
      rw [replaceWhole_cons]
      split
      · refine last_append solid.last ?_
        split
        · exact kept
        · exact ih (isNameChar c) _ later
      · exact kept

theorem isSolid_replaceWhole (solid : IsSolid value) (h : IsSolid t) (after : Bool) :
    IsSolid (replaceWhole name value after 0 t) where
  ne_nil := replaceWhole_ne_nil solid.ne_nil h.ne_nil after
  first := by
    obtain ⟨c, t, rfl⟩ := List.exists_cons_of_ne_nil h.ne_nil
    rw [replaceWhole_cons]
    split
    · rw [List.head?_append_of_ne_nil _ solid.ne_nil]
      exact solid.first
    · exact h.first
  last := last_replaceWhole solid after 0 h.last

theorem isSolid_placeNames {colors : List (Text × Value)}
    (values : ∀ e ∈ colors, IsSolid e.2.render) (h : IsSolid t) : IsSolid (placeNames colors t) := by
  induction colors generalizing t with
  | nil => exact h
  | cons e colors ih =>
    obtain ⟨first, later⟩ := List.forall_mem_cons.1 values
    by_cases hyphen : e.1.contains '-' = true
    · rw [placeNames_hyphen hyphen]
      exact ih later h
    · rw [placeNames_pass hyphen]
      exact ih later (isSolid_replaceWhole first h false)

/-- Words that are changed to texts without blanks at their ends leave none at the ends of a line. -/
theorem isSolid_mapWords {f : Text → Text} (words : ∀ w, IsWord w → IsSolid (f w)) (h : IsSolid t) :
    IsSolid (mapWords f t) := by
  have whole : (pieces t).flatMap Piece.text = t := by
    rw [List.flatMap_def, flatten_pieces]
  have changed (w : Text) (hw : .word w ∈ pieces t) : IsSolid ((Piece.word w).under f) :=
    words w ((isCut_pieces t).isWord hw)
  have some : pieces t ≠ [] := by
    intro empty
    rw [empty] at whole
    exact h.ne_nil whole.symm
  rw [mapWords]
  rw [← whole] at h
  generalize pieces t = ps at h changed some
  constructor
  · obtain ⟨p, ps, rfl⟩ := List.exists_cons_of_ne_nil some
    cases p with
    | separator c => exact List.cons_ne_nil c _
    | word w => exact List.append_ne_nil_of_left_ne_nil (changed w List.mem_cons_self).ne_nil _
  · obtain ⟨p, ps, rfl⟩ := List.exists_cons_of_ne_nil some
    cases p with
    | separator c => exact h.first
    | word w =>
      have first := changed w List.mem_cons_self
      rw [List.flatMap_cons, List.head?_append_of_ne_nil _ first.ne_nil]
      exact first.first
  · obtain ⟨front, p, rfl⟩ := (List.eq_nil_or_concat' ps).resolve_left some
    cases p with
    | separator c =>
      have last := h.last
      simpa [Piece.text, Piece.under] using last
    | word w =>
      have last := changed w (by simp)
      rw [List.flatMap_append, List.flatMap_singleton, List.getLast?_append_of_ne_nil _ last.ne_nil]
      exact last.last

end Solid

/-- Colors in place leave no blank at the ends of a line. -/
theorem isSolid_place {tables : Tables} (solid : tables.AreSolid) {line : Text} (h : IsSolid line) :
    IsSolid (place tables line) := by
  refine isSolid_mapWords (fun w word => ?_) (isSolid_placeNames (fun e he => ?_) h)
  · rw [shownWord]
    split
    · exact solid.show_of (by decide) (fun _ => id) word.isSolid
    · exact word.isSolid
  · generalize held : e.2 = value
    cases solid _ _ _ (held ▸ mem_declared_iff.1 he) with
    | text solid => exact solid
    | pair font => cases font

end Color

/-! ## Shorthands -/

namespace Shorthand

variable {tables : Tables} {line : Text}

theorem behind_leads (word : Text) (h : IsSolid line) (lead : leads (word ++ " ") line = true) :
    isBlankText (after word line) = false := by
  obtain ⟨r, rfl⟩ := exists_of_leads lead
  have behind : after word (word ++ ' ' :: r) = r := by simp [after]
  rw [behind]
  exact h.behind_space

theorem behind_front (h : IsSolid line) (space : ' ' ∈ line) : isBlankText (rest line) = false :=
  IsSolid.behind_space ((front_rest space).symm ▸ h)

theorem front_ne_nil (h : IsSolid line) : front line ≠ [] := by
  obtain ⟨c, r, rfl⟩ := List.exists_cons_of_ne_nil h.ne_nil
  have other : c ≠ ' ' := by
    rintro rfl
    cases h.first ' ' rfl
  simp [front, other]

theorem rest_eq_nil (plain : ' ' ∉ line) : rest line = [] := by
  rw [rest, List.dropWhile_eq_nil_iff.2 (ne_space plain), List.drop_nil]

/-- On every line that a shorthand accepts as a whole or for what stands behind a space, it finds a value
for all that it sets. -/
def Completes (tables : Tables) (s : Shorthand) : Prop :=
  ∀ line ds, IsSolid line → s.accepts line = true → (line ∈ s.keywords ∨ ' ' ∈ line) →
    s.declare tables line = .ok ds → ∀ d ∈ ds, d.IsComplete

theorem isComplete_mk {property value : Text} (named : property ≠ [])
    (some : isBlankText value = false) : (Declaration.mk property value).IsComplete :=
  ⟨named, some⟩

theorem isComplete_single {property value : Text} (named : property ≠ [])
    (some : isBlankText value = false) : ∀ d ∈ [Declaration.mk property value], d.IsComplete :=
  List.forall_mem_singleton.2 (isComplete_mk named some)

section Families

variable {name word property : Text} (named : property ≠ [])
include named

theorem completes_valueOf {before behind : Text} :
    Completes tables (valueOf name word property before behind) := by
  intro line ds solid accepted _ declared
  cases declared
  refine isComplete_single named ?_
  rw [isBlankText_append, isBlankText_append, behind_leads word solid accepted, Bool.and_false,
    Bool.false_and]

variable (tokens : tables.AreSolid)
include tokens

theorem completes_sized : Completes tables (sized name word property) := by
  intro line ds solid accepted _ declared
  cases declared
  exact isComplete_single named (tokens.isBlankText_show (by decide) (behind_leads word solid accepted))

theorem completes_scaled {category usual : Text} (other : category ≠ "fontSize".toList)
    (some : isBlankText usual = false) :
    Completes tables (scaled name word category property usual) := by
  intro line ds solid accepted _ declared
  cases declared
  refine isComplete_single named (tokens.isBlankText_show other ?_)
  split
  · exact some
  · rename_i part
    exact behind_leads word solid ((Bool.or_eq_true_iff.1 accepted).resolve_left (by simpa using part))

omit named in
/-- Of values with something in them, one has something in it, and so has what is shown for it. -/
theorem sizes_complete {values : Text} (some : isBlankText values = false) :
    ∃ t, sizes tables values = .ok t ∧ isBlankText t = false := by
  have each : tables.textOf "sizes" = fun name => pure (tables.show "sizes" name) :=
    funext (Color.textOf_eq_show (tokens.holdsTexts (by decide)) isTextual_defaults.2)
  refine ⟨join " " ((split ' ' values).map (tables.show "sizes")), ?_, ?_⟩
  · rw [sizes, each, List.mapM_pure]
    rfl
  · rw [← join_split ' ' values] at some
    have pieces : (split ' ' values).all isBlankText = false := (isBlankText_join _).symm.trans some
    obtain ⟨piece, listed, shown⟩ := List.all_eq_false.1 pieces
    rw [isBlankText_join, List.all_map, List.all_eq_false]
    refine ⟨piece, listed, ?_⟩
    have kept : isBlankText (tables.show "sizes" piece) = false :=
      tokens.isBlankText_show (by decide) (by simpa using shown)
    exact ne_true_of_eq_false kept

theorem completes_spaced {words : List Text} : Completes tables (spaced name words property) := by
  intro line ds solid accepted _ declared
  obtain ⟨word, -, lead⟩ := List.any_eq_true.1 accepted
  obtain ⟨t, found, some⟩ := sizes_complete tokens
    (behind_front solid (space_of_leads (space_mem_append word) lead))
  obtain ⟨u, found', declared⟩ := bind_ok.1 declared
  cases declared
  cases found.symm.trans found'
  exact isComplete_single named some

end Families

theorem completes_fixed {name : Text} {table : List (Text × List Declaration)}
    (complete : ∀ e ∈ table, ∀ d ∈ e.2, d.IsComplete) : Completes tables (fixed name table) := by
  intro line ds _ accepted _ declared
  obtain ⟨value, found⟩ := Option.isSome_iff_exists.1 accepted
  cases declared
  rw [found]
  exact complete _ (mem_of_lookup found)

theorem isBlankText_background {value : Text} (some : isBlankText value = false) :
    isBlankText (background value) = false := by
  rw [background]
  split
  · split
    · exact some
    · simp only [isBlankText_append]
      rw [show isBlankText ("linear-gradient(135deg, " : Text) = false by decide]
      rfl
  · exact some

theorem fontSize_complete (tokens : tables.AreSolid) {name : Text} (some : isBlankText name = false) :
    ∀ d ∈ fontSize tables name, d.IsComplete := by
  rw [fontSize]
  cases found : tables.lookup "fontSize" name with
  | none => exact isComplete_single (by decide) some
  | some value =>
    cases tokens.lookup found with
    | text solid => exact isComplete_single (by decide) solid.isBlankText_eq_false
    | pair _ first second =>
      exact List.forall_mem_cons.2 ⟨isComplete_mk (by decide) first.isBlankText_eq_false,
        isComplete_single (by decide) second.isBlankText_eq_false⟩

theorem completes_all (tokens : tables.AreSolid) : ∀ s ∈ all, Completes tables s := by
  simp only [all, List.forall_mem_cons, List.not_mem_nil, false_implies, implies_true, and_true]
  and_intros
  all_goals
    first
    | exact completes_fixed (by decide +kernel)
    | exact completes_scaled (by decide) tokens (by decide) (by decide)
    | exact completes_spaced (by decide) tokens
    | exact completes_sized (by decide) tokens
    | exact completes_valueOf (by decide)
    | intro line ds solid accepted whole declared
      cases declared
  -- Left are those of no family: backgrounds, font sizes, grids, properties in full, and the last one.
  · exact isComplete_single (by decide) (isBlankText_background (behind_leads "bg" solid accepted))
  · exact fontSize_complete tokens (behind_leads "size" solid accepted)
  · have columns := behind_leads "grid" solid accepted
    refine List.forall_mem_cons.2 ⟨by decide, isComplete_single (by decide) ?_⟩
    rw [isBlankText_append, isBlankText_append, columns, Bool.and_false, Bool.false_and]
  · have space : ' ' ∈ line := whole.resolve_left List.not_mem_nil
    exact isComplete_single (front_ne_nil solid)
      (tokens.isBlankText_show (by decide) (behind_front solid space))
  · have space : ' ' ∈ line := whole.resolve_left List.not_mem_nil
    exact isComplete_single (front_ne_nil solid) (behind_front solid space)

/-! ## Lines without a space -/

theorem geometry_mem_all : geometry ∈ all := by
  have last : all = particular.dropLast ++ [geometry, passthrough] := rfl
  rw [last]
  simp

theorem eq_geometry : ∀ s ∈ all, s.name = "geometry" → s = geometry := by
  simp only [all, List.forall_mem_cons, List.not_mem_nil, false_implies, implies_true, and_true]
  and_intros
  all_goals
    first
    | exact fun same => absurd same (by decide)
    | trivial

theorem isGeometry_keyword {s : Shorthand} (listed : s ∈ all) (keyword : line ∈ s.keywords) :
    isGeometry line = false := by
  obtain ⟨ds, declared⟩ := declare_ok isTextual_defaults line s listed
  rw [all_eq, List.mem_append, List.mem_singleton] at listed
  rcases listed with listed | rfl
  · have known := keywords_spec s listed line keyword
    rw [declared] at known
    obtain ⟨e, he, whole, -⟩ := exists_of_setBy? known
    exact (wholeLines_spec e he line whole).2.1
  · cases keyword

/-- A property in full that has no space behind it is taken by no other shorthand. -/
theorem find?_cramped (starts : isGeometry line = true) (plain : ' ' ∉ line) :
    find? line = some geometry := by
  have some : (find? line).isSome = true := List.find?_isSome.2 ⟨geometry, geometry_mem_all, starts⟩
  obtain ⟨s, found⟩ := Option.isSome_iff_exists.1 some
  have listed := List.mem_of_find?_eq_some found
  have accepted := List.find?_some found
  rcases space_of_accepts line s listed accepted with keyword | space | name
  · cases starts.symm.trans (isGeometry_keyword listed keyword)
  · exact absurd space plain
  · rw [found, eq_geometry s listed name]

/-- A property in full stands in a line without a space, and no size without a name gives it a value. -/
structure IsCramped (tables : Tables) (line : Text) : Prop where
  starts : isGeometry line = true
  plain : ' ' ∉ line
  unsized : tables.find? "sizes" [] = none

theorem declare_geometry (tables : Tables) (plain : ' ' ∉ line) :
    geometry.declare tables line = .ok [⟨line, tables.show "sizes" []⟩] := by
  change Except.ok [Declaration.mk (front line) (tables.show "sizes" (rest line))] = _
  rw [front_eq_self plain, rest_eq_nil plain]

theorem unsized_defaults : defaults.find? "sizes" [] = none := by decide

theorem show_nil (unsized : tables.find? "sizes" [] = none) : tables.show "sizes" [] = [] := by
  rw [Tables.show, lookup_eq_or, unsized, unsized_defaults]
  rfl

theorem isBlankText_show_nil (tokens : tables.AreSolid) (sized : tables.find? "sizes" [] ≠ none) :
    isBlankText (tables.show "sizes" []) = false := by
  obtain ⟨value, found⟩ := Option.ne_none_iff_exists'.1 sized
  rw [Tables.show, tokens.lookup_eq, found]
  cases tokens _ _ _ found with
  | text solid => exact solid.isBlankText_eq_false
  | pair font => cases font

/-- A line and the values of all tokens have something in them and no blank at their ends; those of
font sizes may be pairs. Then the line stands for declarations or for nothing, and each declaration
names a property and sets it to something. The only exception is a line that has, with its colors in
place, a property in full and no space: all of it is taken for the property, and nothing for the value,
unless a size without a name is declared. -/
theorem expand_complete (tokens : tables.AreSolid) (solid : IsSolid line) :
    ∃ placed found, Color.resolve tables line = .ok placed ∧ expand tables line = .ok found ∧
      (¬ IsCramped tables placed → ∀ ds, found = some ds → ∀ d ∈ ds, d.IsComplete) ∧
      (IsCramped tables placed → found = some [⟨placed, []⟩]) := by
  have resolved := Color.resolve_eq_place (tokens.holdsTexts (by decide)) line
  have placed := Color.isSolid_place tokens solid
  generalize Color.place tables line = t at resolved placed
  cases found : find? t with
  | none =>
    refine ⟨t, none, resolved, bind_ok.2 ⟨t, resolved, by rw [found]; rfl⟩, ?_, fun cramped => ?_⟩
    · exact fun _ ds declared => nomatch declared
    · cases found.symm.trans (find?_cramped cramped.starts cramped.plain)
  | some s =>
    have listed := List.mem_of_find?_eq_some found
    have accepted := List.find?_some found
    obtain ⟨ds, declared⟩ := declare_ok tokens.isTextual t s listed
    refine ⟨t, some ds, resolved, bind_ok.2 ⟨t, resolved, ?_⟩, fun roomy => ?_, fun cramped => ?_⟩
    · rw [found]
      exact bind_ok.2 ⟨ds, declared, rfl⟩
    · rintro _ ⟨⟩
      rcases space_of_accepts t s listed accepted with keyword | space | name
      · exact completes_all tokens s listed t ds placed accepted (.inl keyword) declared
      · exact completes_all tokens s listed t ds placed accepted (.inr space) declared
      · obtain rfl := eq_geometry s listed name
        by_cases space : ' ' ∈ t
        · exact completes_all tokens geometry listed t ds placed accepted (.inr space) declared
        · rw [declare_geometry tables space] at declared
          cases declared
          refine isComplete_single placed.ne_nil (isBlankText_show_nil tokens fun unsized => ?_)
          exact roomy ⟨accepted, space, unsized⟩
    · cases found.symm.trans (find?_cramped cramped.starts cramped.plain)
      rw [declare_geometry tables cramped.plain, show_nil cramped.unsized] at declared
      exact congrArg some (Except.ok.inj declared).symm

/-- A color with a blank inside. -/
def edges : Tables := .ofTexts (.ofList [("colors", .ofList [("edge", "1px\tsolid")])])

/-- Between two spaces stands a size without a name. -/
theorem expand_edges : edges.AreSolid ∧ IsSolid "pad  sm edge" ∧
    expand edges "pad  sm edge" = .ok (some [⟨"padding", " 0.5rem 1px\tsolid"⟩]) ∧
      (Declaration.mk "padding" " 0.5rem 1px\tsolid").IsComplete := by
  have tokens : edges.AreSolid := areSolid_ofTexts (by decide +kernel)
  have solid : IsSolid "pad  sm edge" := by decide +kernel
  obtain ⟨t, found, resolved, expanded, complete, -⟩ := expand_complete tokens solid
  have computed : (expand edges "pad  sm edge").toOption =
      some (some [⟨"padding", " 0.5rem 1px\tsolid"⟩]) := by decide +kernel
  have roomy : ¬ IsCramped edges t := by
    cases resolved.symm.trans (Color.resolve_eq_place (tokens.holdsTexts (by decide)) _)
    exact fun cramped => cramped.plain (by decide +kernel)
  rw [expanded] at computed ⊢
  cases computed
  exact ⟨tokens, solid, rfl, complete roomy _ rfl _ List.mem_cons_self⟩

def tabbed : Text := "width\tauto"

theorem place_tabbed : Color.place defaults tabbed = tabbed := by
  have plain : ∀ f ∈ plainColors, Color.replaceWhole f.1 f.2 false 0 tabbed = tabbed := by
    decide +kernel
  have named : Color.placeNames (Color.declared defaults).entries tabbed = tabbed := by
    refine Color.placeNames_eq_self fun e he hyphen => ?_
    obtain ⟨f, hf, rfl⟩ := mem_textTable he
    exact plain f ((Color.hyphen_or_plain hf).resolve_left hyphen)
  rw [Color.place, named]
  decide

/-- All of the line is taken for a property. -/
theorem expand_tabbed : defaults.AreSolid ∧ IsSolid tabbed ∧ '\n' ∉ tabbed ∧
    expand defaults tabbed = .ok (some [⟨tabbed, []⟩]) ∧
      ¬ (Declaration.mk tabbed []).IsComplete := by
  have resolved := Color.resolve_eq_place isTextual_defaults.1 tabbed
  rw [place_tabbed] at resolved
  have plain : ' ' ∉ tabbed := by decide
  have found : find? tabbed = some geometry := find?_cramped (by decide) plain
  refine ⟨areSolid_defaults, by decide, by decide, bind_ok.2 ⟨tabbed, resolved, ?_⟩,
    fun complete => nomatch complete.value⟩
  rw [found]
  refine bind_ok.2 ⟨_, declare_geometry defaults plain, ?_⟩
  rw [show_nil unsized_defaults]
  rfl

end Shorthand

end Stylesheet
