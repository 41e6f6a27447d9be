import Stylesheet.Proofs.Completion
import Stylesheet.Proofs.ColorOrder

/-!
# The properties that a line sets

Colors are put in place in the whole line before a shorthand is looked for, in its first word too. So
declared colors can change which properties a line sets: a color named `border` takes the place of the
word that makes a border. But only so: which properties are set is known from the line with its colors
in place, mostly from what stands before its first space.

* `properties`: the properties that a line sets once its colors are in place;
* `Faithful`: a shorthand sets these on every line that it accepts;
* `faithful_particular`, `properties_of_refused`: all but the last do, and the last one on the lines that
  they leave;
* `properties_expand`: the properties of a line, for any tables that add nothing but colors;
* `properties_recolored`: what declared colors do to them.
-/

namespace Stylesheet.Shorthand

open Text Token

/-! ## What a line sets -/

/-- Properties with the whole lines that set them. -/
def wholeLines : List (List Text × List Text) :=
  [(["border-radius"], ["round"]),
   (["box-shadow"], ["shadow", "no shadow"]),
   (["border"], ["no border"]),
   (["outline"], ["no outline"]),
   (["cursor"], ["pointer", "clickable"]),
   (["transition"], ["smooth"]),
   (["text-decoration"], ["no underline", "underline", "line-through"]),
   (["text-transform"], ["uppercase", "lowercase", "capitalize"]),
   (["font-weight"], ["bold", "semibold", "light", "normal"]),
   (["display", "flex-direction"], ["row", "column"]),
   (["display", "flex-direction", "justify-content"], ["row spread", "row center", "row end"]),
   (["display", "flex-direction", "align-items"], ["column center"]),
   (["flex-wrap"], ["wrap"]),
   (["text-align"], ["center"]),
   (["display", "justify-content", "align-items"], ["center all"]),
   (["align-items"], ["align center"]),
   (["justify-content"], ["justify center"]),
   (["width"], ["w-full", "w-screen"]),
   (["height"], ["h-full", "h-screen"]),
   (["position"], ["relative", "absolute", "fixed", "sticky"]),
   (["overflow"], ["overflow hidden", "overflow scroll", "overflow auto"]),
   (["display"], ["block", "inline", "inline-block", "hidden"]),
   (["visibility"], ["invisible"])]

/-- Properties with the words that set them to what stands behind. -/
def leadWords : List (List Text × List Text) :=
  [(["background"], ["bg"]),
   (["color"], ["color", "text"]),
   (["padding"], ["pad"]),
   (["margin"], ["margin", "m"]),
   (["border-radius"], ["round"]),
   (["box-shadow"], ["shadow"]),
   (["border"], ["border"]),
   (["transition"], ["transition"]),
   (["opacity"], ["opacity"]),
   (["font-size"], ["size"]),
   (["display", "grid-template-columns"], ["grid"]),
   (["gap"], ["gap"]),
   (["width"], ["w"]),
   (["height"], ["h"]),
   (["z-index"], ["z"])]

/-- The properties that a table gives for a text. -/
def setBy? (table : List (List Text × List Text)) (t : Text) : Option (List Text) :=
  (table.find? fun e => e.2.contains t).map Prod.fst

/-- The properties that a word sets to a value. A font size with a name comes with its line height; a
word that is no shorthand is itself a property. -/
def setTo (word value : Text) : List Text :=
  if word = "size".toList ∧ (fontSizes.map Prod.fst).contains value then ["font-size", "line-height"]
  else (setBy? leadWords word).getD [word]

/-- The properties that a line sets, if its colors are in place. -/
def properties (line : Text) : Option (List Text) :=
  match setBy? wholeLines line with
  | some names => some names
  | none =>
    if line.contains ' ' then some (setTo (front line) (rest line))
    else if isGeometry line then some [line]
    else none

/-- The names of the properties in some declarations. -/
def names (ds : List Declaration) : List Text := ds.map Declaration.property

variable {line word r t : Text} {ns : List Text}

theorem ne_space (plain : ' ' ∉ word) : ∀ c ∈ word, (c != ' ') = true := by
  intro c hc
  simpa using fun same : c = ' ' => plain (same ▸ hc)

theorem front_append (plain : ' ' ∉ word) (r : Text) : front (word ++ ' ' :: r) = word := by
  rw [front, List.takeWhile_append_of_pos (ne_space plain)]
  simp

theorem rest_append (plain : ' ' ∉ word) (r : Text) : rest (word ++ ' ' :: r) = r := by
  rw [rest, List.dropWhile_append_of_pos (ne_space plain)]
  simp

theorem front_eq_self (plain : ' ' ∉ line) : front line = line := by
  rw [front, List.takeWhile_eq_self_iff]
  exact ne_space plain

theorem exists_of_setBy? {table : List (List Text × List Text)} (h : setBy? table t = some ns) :
    ∃ e ∈ table, t ∈ e.2 ∧ e.1 = ns := by
  obtain ⟨e, found, same⟩ := Option.map_eq_some_iff.1 h
  exact ⟨e, List.mem_of_find?_eq_some found, by simpa using List.find?_some found, same⟩

theorem setBy?_eq_none {table : List (List Text × List Text)} (h : ∀ e ∈ table, t ∉ e.2) :
    setBy? table t = none := by
  rw [Option.eq_none_iff_forall_ne_some]
  intro ns found
  obtain ⟨e, he, ht, -⟩ := exists_of_setBy? found
  exact h e he ht

/-- The shorthands before the last, which takes what they leave. -/
def particular : List Shorthand := all.dropLast

/-- No word of a shorthand leads a whole line, nor does a property that is written in full, and one of
the particular shorthands accepts it. -/
theorem wholeLines_spec : ∀ e ∈ wholeLines, ∀ line ∈ e.2,
    (' ' ∈ line → setBy? leadWords (front line) = none) ∧ isGeometry line = false ∧
      particular.any (·.accepts line) = true := by
  decide +kernel

/-- The whole lines that a shorthand accepts set what the table says. -/
theorem keywords_spec : ∀ s ∈ particular, ∀ line ∈ s.keywords,
    setBy? wholeLines line = (s.declare defaults line).toOption.map names := by
  decide +kernel

theorem plain_of_lead : ∀ e ∈ leadWords, ∀ word ∈ e.2, word.all (!isBlank ·) = true := by
  decide +kernel

theorem space_free_of_lead (lead : (setBy? leadWords word).isSome = true) : ' ' ∉ word := by
  obtain ⟨ns, found⟩ := Option.isSome_iff_exists.1 lead
  obtain ⟨e, he, hw, -⟩ := exists_of_setBy? found
  intro space
  exact absurd (List.all_eq_true.1 (plain_of_lead e he word hw) ' ' space) (by decide)

theorem properties_whole (h : setBy? wholeLines line = some ns) : properties line = some ns := by
  simp only [properties, h]

/-- A line that starts with a word of a shorthand and a space is no whole line. -/
theorem properties_lead (lead : (setBy? leadWords word).isSome = true) (r : Text) :
    properties (word ++ ' ' :: r) = some (setTo word r) := by
  have plain : ' ' ∉ word := space_free_of_lead lead
  have part : setBy? wholeLines (word ++ ' ' :: r) = none := by
    refine setBy?_eq_none fun e he hl => ?_
    have other := (wholeLines_spec e he _ hl).1 (by simp)
    rw [front_append plain] at other
    simp [other] at lead
  simp [properties, part, front_append plain, rest_append plain]

/-! ## Shorthands one by one -/

/-- On every line that a shorthand accepts for its first word, it sets the properties of the line. -/
def Faithful (s : Shorthand) : Prop :=
  ∀ line ds, s.accepts line = true → line ∉ s.keywords → s.declare defaults line = .ok ds →
    properties line = some (names ds)

theorem exists_of_leads (h : leads (word ++ " ") line = true) : ∃ r, line = word ++ ' ' :: r := by
  obtain ⟨r, rfl⟩ := List.isPrefixOf_iff_prefix.1 h
  exact ⟨r, by simp⟩

theorem properties_of_leads (lead : setBy? leadWords word = some ns) (other : word ≠ "size".toList)
    (h : leads (word ++ " ") line = true) : properties line = some ns := by
  obtain ⟨r, rfl⟩ := exists_of_leads h
  rw [properties_lead (by simp [lead]), setTo, if_neg fun h => other h.1, lead, Option.getD_some]

section Families

variable {name property : Text}

theorem faithful_valueOf {before behind : Text} (lead : setBy? leadWords word = some [property])
    (other : word ≠ "size".toList) : Faithful (valueOf name word property before behind) := by
  intro line ds accepted _ declared
  cases declared
  exact properties_of_leads lead other accepted

theorem faithful_sized (lead : setBy? leadWords word = some [property])
    (other : word ≠ "size".toList) : Faithful (sized name word property) := by
  intro line ds accepted _ declared
  cases declared
  exact properties_of_leads lead other accepted

theorem faithful_spaced {words : List Text}
    (lead : ∀ word ∈ words, setBy? leadWords word = some [property] ∧ word ≠ "size".toList) :
    Faithful (spaced name words property) := by
  intro line ds accepted _ declared
  obtain ⟨word, hw, front⟩ := List.any_eq_true.1 accepted
  obtain ⟨t, -, declared⟩ := bind_ok.1 declared
  cases declared
  exact properties_of_leads (lead word hw).1 (lead word hw).2 front

theorem faithful_scaled {category usual : Text} (lead : setBy? leadWords word = some [property])
    (other : word ≠ "size".toList) : Faithful (scaled name word category property usual) := by
  intro line ds accepted part declared
  cases declared
  rcases Bool.or_eq_true_iff.1 accepted with same | front
  · exact absurd (List.mem_singleton.2 (eq_of_beq same)) part
  · exact properties_of_leads lead other front

theorem faithful_fixed {table : List (Text × List Declaration)} : Faithful (fixed name table) := by
  intro line ds accepted part _
  obtain ⟨value, found⟩ := Option.isSome_iff_exists.1 accepted
  exact absurd (List.mem_map_of_mem (mem_of_lookup found)) part

end Families

theorem names_fontSize (value : Text) :
    names (fontSize defaults value) = setTo "size" value := by
  have paired : ∀ value ∈ fontSizes.map Prod.fst,
      names (fontSize defaults value) = setTo "size" value := by decide +kernel
  by_cases listed : value ∈ fontSizes.map Prod.fst
  · exact paired value listed
  · have built_in : defaults.get? "fontSize" = some ((Table.ofList fontSizes).map .parts) := rfl
    have keys : ((Table.ofList fontSizes).map Value.parts).keys = fontSizes.map Prod.fst := by
      decide +kernel
    have missing : defaults.find? "fontSize" value = none := by
      rw [Tables.find?, built_in, Option.bind_some, Option.eq_none_iff_forall_ne_some]
      intro v found
      exact listed (keys ▸ Table.mem_keys_of_get? found)
    have nothing : defaults.lookup "fontSize" value = none := by
      rw [Tables.lookup, missing]
      rfl
    rw [fontSize, nothing, setTo, if_neg fun h => listed (List.contains_iff_mem.1 h.2)]
    rfl

theorem properties_size (h : leads "size " line = true) :
    properties line = some (names (fontSize defaults (after "size" line))) := by
  have lead : leads ("size" ++ " ") line = true := h
  obtain ⟨r, rfl⟩ := exists_of_leads lead
  rw [properties_lead (by decide), ← names_fontSize]
  rfl

/-- A line that no word of a shorthand leads sets what stands before its first space. -/
theorem properties_other (part : setBy? wholeLines line = none)
    (other : ' ' ∈ line → setBy? leadWords (front line) = none) :
    properties line = if ' ' ∈ line ∨ isGeometry line = true then some [front line] else none := by
  by_cases space : ' ' ∈ line
  · have other := other space
    have unsized : front line ≠ "size".toList := by
      intro same
      rw [same] at other
      cases other
    have same : setTo (front line) (rest line) = [front line] := by
      rw [setTo, if_neg fun h => unsized h.1, other, Option.getD_none]
    simp [properties, part, space, same]
  · simp [properties, part, space, front_eq_self space]

theorem exists_of_isGeometry (h : isGeometry line = true) :
    ∃ word ∈ geometryWords, ∃ c r, line = word ++ c :: r ∧ isBlank c = true := by
  obtain ⟨word, hw, starts⟩ := List.any_eq_true.1 h
  refine ⟨word, hw, ?_⟩
  by_cases lead : leads word line = true
  · obtain ⟨r, rfl⟩ := List.isPrefixOf_iff_prefix.1 lead
    cases r with
    | nil => simp [dropLead?] at starts
    | cons c r => exact ⟨c, r, rfl, by simpa [dropLead?, lead] using starts⟩
  · simp only [dropLead?, lead] at starts
    cases starts

/-- A property that is written in full is no shorthand, also if no space stands behind it. -/
theorem properties_geometry (h : isGeometry line = true) : properties line = some [front line] := by
  have part : setBy? wholeLines line = none := by
    refine setBy?_eq_none fun e he hl => ?_
    cases h.symm.trans (wholeLines_spec e he line hl).2.1
  have other : setBy? leadWords (front line) = none := by
    obtain ⟨word, hw, c, r, rfl, blank⟩ := exists_of_isGeometry h
    have written : ∀ word ∈ geometryWords, ' ' ∉ word ∧ setBy? leadWords word = none := by
      decide +kernel
    by_cases space : c = ' '
    · rw [space, front_append (written word hw).1]
      exact (written word hw).2
    · -- The blank is part of what stands before the first space, and in no word of a shorthand.
      have inside : c ∈ front (word ++ c :: r) := by
        rw [front, List.takeWhile_append_of_pos (ne_space (written word hw).1)]
        simp [space]
      refine setBy?_eq_none fun e he hf => ?_
      have plain := List.all_eq_true.1 (plain_of_lead e he _ hf) c inside
      simp [blank] at plain
  rw [properties_other part fun _ => other, if_pos (.inr h)]

/-! ## All shorthands -/

theorem faithful_particular : ∀ s ∈ particular, Faithful s := by
  have background : setBy? leadWords "bg" = some (["background"] : List Text) := rfl
  have grid : setBy? leadWords "grid" =
      some (["display", "grid-template-columns"] : List Text) := rfl
  simp only [particular, all, List.dropLast, List.forall_mem_cons, List.not_mem_nil, false_implies,
    implies_true, and_true]
  and_intros
  all_goals
    first
    | exact faithful_fixed
    | exact faithful_scaled rfl (by decide)
    | exact faithful_spaced (by decide)
    | exact faithful_sized rfl (by decide)
    | exact faithful_valueOf rfl (by decide)
    | intro line ds accepted _ declared
      cases declared
      first
      | exact properties_geometry accepted
      | exact properties_of_leads background (by decide) accepted
      | exact properties_of_leads grid (by decide) accepted
      | exact properties_size accepted

theorem accepts_lead : ∀ e ∈ leadWords, ∀ word ∈ e.2, ∀ r : Text,
    particular.any (·.accepts (word ++ ' ' :: r)) = true := by
  simp only [leadWords, List.forall_mem_cons, List.not_mem_nil, false_implies, implies_true, and_true]
  and_intros
  all_goals exact fun r => rfl

theorem front_rest (space : ' ' ∈ line) : front line ++ ' ' :: rest line = line := by
  induction line with
  | nil => cases space
  | cons c line ih =>
    by_cases first : c = ' '
    · simp [front, rest, first]
    · have later := ih (by simpa [Ne.symm first] using space)
      simpa [front, rest, first] using later

/-- What the other shorthands refuse sets what stands before its first space, if it has one. -/
theorem properties_of_refused (refused : particular.any (·.accepts line) = false) :
    properties line = if ' ' ∈ line then some [front line] else none := by
  have part : setBy? wholeLines line = none := by
    refine setBy?_eq_none fun e he hl => ?_
    cases refused.symm.trans (wholeLines_spec e he line hl).2.2
  have other (space : ' ' ∈ line) : setBy? leadWords (front line) = none := by
    refine setBy?_eq_none fun e he hw => ?_
    have accepted := accepts_lead e he _ hw (rest line)
    rw [front_rest space] at accepted
    cases refused.symm.trans accepted
  have bare : isGeometry line = false := by
    have last : particular = particular.dropLast ++ [geometry] := rfl
    have accepts : geometry.accepts line = isGeometry line := rfl
    rw [last, List.any_append, Bool.or_eq_false_iff] at refused
    simpa [accepts] using refused.2
  simp [properties_other part other, bare]

theorem all_eq : all = particular ++ [passthrough] := rfl

theorem find?_eq (line : Text) :
    find? line = (particular.find? (·.accepts line)).or
      (if ' ' ∈ line then some passthrough else none) := by
  have last : [passthrough].find? (·.accepts line) =
      if ' ' ∈ line then some passthrough else none := by
    have accepts : passthrough.accepts line = line.contains ' ' := rfl
    by_cases space : ' ' ∈ line
    · rw [List.find?_cons_of_pos (by simpa [accepts] using space), if_pos space]
    · rw [List.find?_cons_of_neg (by simpa [accepts] using space), if_neg space, List.find?_nil]
  rw [find?, all_eq, List.find?_append, last]

theorem refused_of_find? (h : particular.find? (·.accepts line) = none) :
    particular.any (·.accepts line) = false := by
  rw [List.any_eq_false]
  exact List.find?_eq_none.1 h

/-- The first shorthand that accepts a line sets its properties. -/
theorem properties_of_find? {s : Shorthand} {ds : List Declaration} (found : find? line = some s)
    (declared : s.declare defaults line = .ok ds) : properties line = some (names ds) := by
  rw [find?_eq] at found
  rcases Option.or_eq_some_iff.1 found with first | ⟨refused, last⟩
  · have listed := List.mem_of_find?_eq_some first
    have accepted := List.find?_some first
    by_cases keyword : line ∈ s.keywords
    · apply properties_whole
      rw [keywords_spec s listed line keyword, declared]
      rfl
    · exact faithful_particular s listed line ds accepted keyword declared
  · by_cases space : ' ' ∈ line
    · rw [if_pos space] at last
      cases last
      cases declared
      rw [properties_of_refused (refused_of_find? refused), if_pos space]
      rfl
    · rw [if_neg space] at last
      cases last

theorem properties_of_find?_eq_none (h : find? line = none) : properties line = none := by
  rw [find?_eq, Option.or_eq_none_iff] at h
  obtain ⟨refused, last⟩ := h
  by_cases space : ' ' ∈ line
  · rw [if_pos space] at last
    cases last
  · rw [properties_of_refused (refused_of_find? refused), if_neg space]

/-! ## Declared colors -/

/-- Tables that differ from the built-in ones in colors only. -/
def AddsColors (tables : Tables) : Prop :=
  ∀ category ≠ "colors".toList, ∀ name, tables.lookup category name = defaults.lookup category name

/-- Behind the colors, a line always stands for declarations or for nothing, and its properties are those
of the line with its colors in place. -/
theorem properties_expand {tables : Tables} (adds : AddsColors tables) {placed : Text}
    (resolved : Color.resolve tables line = .ok placed) :
    ∃ ds, expand tables line = .ok ds ∧ ds.map names = properties placed := by
  cases found : find? placed with
  | none =>
    refine ⟨none, bind_ok.2 ⟨placed, resolved, by rw [found]; rfl⟩, ?_⟩
    rw [properties_of_find?_eq_none found, Option.map_none]
  | some s =>
    have listed := List.mem_of_find?_eq_some found
    obtain ⟨ds, declared⟩ := declare_ok isTextual_defaults placed s listed
    have same := declare_congr adds placed s listed
    refine ⟨some ds, bind_ok.2 ⟨placed, resolved, ?_⟩, ?_⟩
    · rw [found]
      exact bind_ok.2 ⟨ds, same.trans declared, rfl⟩
    · rw [properties_of_find? found declared, Option.map_some]

/-- The built-in tables with declared colors over them. -/
def recolored (colors : Table Text) : Tables :=
  .ofLayers [some (Color.layer colors)]

theorem addsColors_recolored (colors : Table Text) : AddsColors (recolored colors) := by
  intro category other name
  have inserted : recolored colors = defaults.insert "colors"
      (((defaults.get? "colors").getD ∅).merge (colors.map .text)) := rfl
  refine Token.lookup_congr (fun name => ?_) name
  rw [inserted, Tables.find?, Tables.find?, Table.get?_insert, if_neg other]

theorem holdsTexts_recolored (colors : Table Text) : HoldsTexts "colors" (recolored colors) := by
  refine holdsTexts_ofLayers isTextual_defaults.1 fun tables listed => ?_
  obtain rfl : tables = Color.layer colors := by simpa using listed
  exact Color.holdsTexts_layer colors

/-- Two lines have the same text before their first space, and neither is a shorthand as a whole or a
font size. -/
structure LedAlike (a b : Text) : Prop where
  spaces : ' ' ∈ a ∧ ' ' ∈ b
  parts : setBy? wholeLines a = none ∧ setBy? wholeLines b = none
  fronts : front a = front b
  unsized : front a ≠ "size".toList

theorem LedAlike.properties_eq {a b : Text} (h : LedAlike a b) : properties a = properties b := by
  have set (value : Text) : setTo (front b) value = (setBy? leadWords (front b)).getD [front b] := by
    rw [setTo, if_neg fun sized => h.unsized (h.fronts.trans sized.1)]
  simp only [properties, h.parts.1, h.parts.2, List.contains_iff_mem.2 h.spaces.1,
    List.contains_iff_mem.2 h.spaces.2, if_true, h.fronts, set]

/-- Whatever colors are declared, a line stands for declarations or for nothing, and the properties that
it sets are those of the line with its colors in place. So it sets the same as with the built-in colors
exactly if both lines with their colors in place do, and it does if only what follows the first space
has changed and no shorthand as a whole or font size is concerned. -/
theorem properties_recolored (colors : Table Text) (line : Text) :
    ∃ a b ds es, Color.resolve defaults line = .ok a ∧ expand defaults line = .ok ds ∧
      Color.resolve (recolored colors) line = .ok b ∧ expand (recolored colors) line = .ok es ∧
      ds.map names = properties a ∧ es.map names = properties b ∧
      (LedAlike a b → es.map names = ds.map names) := by
  have built_in := Color.resolve_eq_place isTextual_defaults.1 line
  have declared := Color.resolve_eq_place (holdsTexts_recolored colors) line
  obtain ⟨ds, expanded, set⟩ := properties_expand (fun _ _ _ => rfl) built_in
  obtain ⟨es, expanded', set'⟩ := properties_expand (addsColors_recolored colors) declared
  refine ⟨_, _, ds, es, built_in, expanded, declared, expanded', set, set', fun alike => ?_⟩
  rw [set, set', alike.properties_eq]

/-! ## A color with the name of a shorthand -/

def borderLine : Text := "border 1px solid border"

def borderColor : Table Text := .ofList [("border", "#ccc")]

theorem placeNames_borderLine :
    Color.placeNames (textTable colors).entries borderLine = borderLine := by
  have kept : ∀ f ∈ plainColors, Color.replaceWhole f.1 f.2 false 0 borderLine = borderLine := by
    decide +kernel
  refine Color.placeNames_eq_self fun e he hyphen => ?_
  obtain ⟨f, hf, rfl⟩ := mem_textTable he
  exact kept f ((Color.hyphen_or_plain hf).resolve_left hyphen)

theorem entries_borderColor : (Color.declared (recolored borderColor)).entries =
    (textTable colors).entries ++ [("border".toList, .text "#ccc")] := by
  have inserted : Color.declared (recolored borderColor) =
      (textTable colors).insert "border" (.text "#ccc") := rfl
  have other : ∀ f ∈ plainColors, f.1 ≠ "border".toList := by decide +kernel
  rw [inserted, Table.entries_insert]
  intro known
  obtain ⟨e, he, same⟩ := List.mem_map.1 known
  obtain ⟨f, hf, rfl⟩ := mem_textTable he
  rcases Color.hyphen_or_plain hf with hyphen | plain
  · have bare : ("border" : Text).contains '-' = false := by decide
    exact absurd (same ▸ hyphen) (ne_true_of_eq_false bare)
  · exact other f plain same

/-- The color takes the place of the word that makes the border. -/
theorem properties_border : trim borderLine = borderLine ∧ (∀ e ∈ borderColor.entries, e.2 ≠ []) ∧
    ∃ ds es, expand defaults borderLine = .ok ds ∧
      expand (recolored borderColor) borderLine = .ok es ∧
      ds.map names = some ["border".toList] ∧ es.map names = some ["#ccc".toList] := by
  have built_in : Color.place defaults borderLine = borderLine := by
    have colors : Color.declared defaults = textTable colors := rfl
    rw [Color.place, colors, placeNames_borderLine]
    decide +kernel
  have declared : Color.place (recolored borderColor) borderLine = "#ccc 1px solid #ccc" := by
    rw [Color.place, entries_borderColor, Color.placeNames_append, placeNames_borderLine]
    decide +kernel
  obtain ⟨ds, expanded, set⟩ := properties_expand (fun _ _ _ => rfl)
    (Color.resolve_eq_place isTextual_defaults.1 borderLine)
  obtain ⟨es, expanded', set'⟩ := properties_expand (addsColors_recolored borderColor)
    (Color.resolve_eq_place (holdsTexts_recolored borderColor) borderLine)
  refine ⟨by decide +kernel, by decide +kernel, ds, es, expanded, expanded', ?_, ?_⟩
  · have lead : setBy? leadWords "border" = some (["border"] : List Text) := rfl
    rw [set, built_in]
    exact properties_of_leads lead (by decide) (by decide +kernel)
  · rw [set', declared]
    decide +kernel

end Stylesheet.Shorthand
