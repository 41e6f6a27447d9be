import Stylesheet.Proofs.CompleteDeclarations
import Stylesheet.Proofs.DocumentShape
import Stylesheet.Proofs.OverlookedLines

/-!
# References to shades

A word such as `blue-500` refers to a hue of the palette in some shade. Linting reports a reference
that no color has as its name, whatever its number of digits. Compiling puts colors in place only of
references with two or three digits. So every reference that is reported is left as it is written, and
one that is not reported has its color put in place, unless the source itself declares a color with
fewer or more digits: that is neither put in place nor reported.

* `references`: the references to shades in a line;
* `defaults_shade`: the built-in colors are the hues of the palette in the given shades;
* `place_shadeName`: what compiling puts in the place of a reference;
* `shades_checkProperty`: which references are reported on a property line;
* `shade_references`: both for every property line of a source.
-/

namespace Stylesheet

open Text Token
open Color (IsWord pieces Piece shade?)

namespace Table

variable {α : Type}

theorem mem_keys_insertAll {t : Table α} {pairs : List (Text × α)} {key : Text}
    (h : key ∈ t.keys ∨ key ∈ pairs.map Prod.fst) : key ∈ (t.insertAll pairs).keys := by
  induction pairs generalizing t with
  | nil => exact h.resolve_right List.not_mem_nil
  | cons e pairs ih =>
    rw [insertAll_cons]
    rw [List.map_cons, List.mem_cons] at h
    rcases h with known | rfl | later
    · refine ih (.inl ?_)
      rw [keys_insert]
      split
      · exact known
      · exact List.mem_append_left _ known
    · exact ih (.inl (mem_keys_insert_self t e.1 e.2))
    · exact ih (.inr later)

end Table

/-! ## References -/

namespace Color

/-- The hue of the palette and the digits that a piece refers to. -/
def Piece.reference? : Piece → Option (Text × Text)
  | .word w => (shade? w).filter fun r => (palette.map Prod.fst).contains r.1
  | .separator _ => none

/-- The references to shades of the palette in a line. -/
def references (line : Text) : List (Text × Text) :=
  (pieces line).filterMap Piece.reference?

theorem reference?_eq_some {p : Piece} {r : Text × Text} (h : p.reference? = some r) :
    p = .word (shadeName r) ∧ shade? (shadeName r) = some r ∧ r.1 ∈ palette.map Prod.fst := by
  cases p with
  | separator c => cases h
  | word w =>
    obtain ⟨found, listed⟩ := Option.filter_eq_some_iff.1 h
    obtain ⟨rfl, -⟩ := shade?_eq_some found
    exact ⟨rfl, found, by simpa using listed⟩

theorem word_of_mem_references {line : Text} {r : Text × Text} (h : r ∈ references line) :
    IsWord (shadeName r) ∧ shade? (shadeName r) = some r ∧ r.1 ∈ palette.map Prod.fst := by
  obtain ⟨p, hp, found⟩ := List.mem_filterMap.1 h
  obtain ⟨rfl, read, listed⟩ := reference?_eq_some found
  exact ⟨(isCut_pieces line).isWord hp, read, listed⟩

end Color

open Color (shadeName references)

/-! ## Colors of the palette -/

namespace Token

theorem palette_spec : ∀ e ∈ palette,
    IsWord e.1 ∧ e.1.contains '-' = false ∧ shades.length = e.2.length := by
  decide

theorem shades_spec : ∀ shade ∈ shades,
    IsWord shade ∧ shade.contains '-' = false ∧ (shade.length = 2 ∨ shade.length = 3) := by
  decide

theorem plainColors_spec : ∀ e ∈ plainColors, IsWord e.1 ∧ e.1.contains '-' = false := by
  decide

theorem find?_colors (name : Text) :
    defaults.find? "colors" name = (textTable colors).get? name := by
  have table : defaults.get? "colors" = some (textTable colors) := rfl
  rw [Tables.find?, table, Option.bind_some]

theorem mem_colors_of_find? {name : Text} {value : Value}
    (found : defaults.find? "colors" name = some value) : ∃ e ∈ colors, e.1 = name := by
  rw [find?_colors] at found
  obtain ⟨e, he, same⟩ := mem_textTable (Table.mem_of_find found)
  exact ⟨e, he, (Prod.mk.inj same).1⟩

theorem isWord_of_mem_colors {e : Text × Text} (h : e ∈ colors) : IsWord e.1 := by
  rcases Color.mem_colors h with ⟨row, hr, shade, hs, same⟩ | plain
  · have hue := (palette_spec row hr).1
    have digits := (shades_spec shade hs).1
    rw [same]
    refine ⟨by simp [shadeName], fun c hc => ?_⟩
    rcases List.mem_append.1 hc with hc | hc
    · exact hue.letters c hc
    · rcases List.mem_cons.1 hc with rfl | hc
      · decide
      · exact digits.letters c hc
  · exact (plainColors_spec e plain).1

/-- The built-in colors with a hue and digits in their names are those of the palette. -/
theorem defaults_shade (r : Text × Text) :
    (defaults.find? "colors" (shadeName r)).isSome = true ↔
      r.1 ∈ palette.map Prod.fst ∧ r.2 ∈ shades := by
  obtain ⟨hue, digits⟩ := r
  constructor
  · intro known
    obtain ⟨value, found⟩ := Option.isSome_iff_exists.1 known
    obtain ⟨f, hf, same⟩ := mem_colors_of_find? found
    rcases Color.mem_colors hf with ⟨row, hr, shade, hs, shaded⟩ | plain
    · have bare : '-' ∉ row.1 := by simpa using (palette_spec row hr).2.1
      have bare' : '-' ∉ shade := by simpa using (shades_spec shade hs).2.1
      obtain ⟨rfl, -, rfl⟩ := (List.append_cons_inj_of_notMem bare bare').1 (shaded.symm.trans same)
      exact ⟨List.mem_map_of_mem hr, hs⟩
    · have hyphen := (plainColors_spec f plain).2
      simp [same, shadeName] at hyphen
  · rintro ⟨listed, hs⟩
    obtain ⟨row, hr, rfl⟩ := List.mem_map.1 listed
    have paired : (shades.zip row.2).map Prod.fst = shades :=
      List.map_fst_zip (palette_spec row hr).2.2.le
    rw [← paired] at hs
    obtain ⟨pair, hp, rfl⟩ := List.mem_map.1 hs
    have color : shadeName (row.1, pair.1) ∈ colors.map Prod.fst := by
      refine List.mem_map.2 ⟨(row.1 ++ "-" ++ pair.1, pair.2), ?_, by simp [shadeName]⟩
      exact List.mem_append_left _ (List.mem_flatMap.2 ⟨row, hr, List.mem_map.2 ⟨pair, hp, rfl⟩⟩)
    have known : shadeName (row.1, pair.1) ∈ (textTable colors).keys := by
      rw [textTable, Table.keys_map, Table.ofList_eq_insertAll]
      exact Table.mem_keys_insertAll (.inr color)
    obtain ⟨value, found⟩ := Table.exists_get?_of_mem_keys known
    rw [find?_colors, found, Option.isSome_some]

theorem find?_defaults_eq_none {r : Text × Text} (other : r.2 ∉ shades) :
    defaults.find? "colors" (shadeName r) = none := by
  rw [← Option.not_isSome_iff_eq_none]
  exact fun known => other ((defaults_shade r).1 known).2

end Token

/-! ## Colors in place -/

/-- The value that a document is compiled with comes from its own tokens or else is built in. -/
theorem find?_tables (d : Document) (category name : Text) :
    (Sheet.tables none d).find? category name =
      ((Tables.ofTexts d.tokens).find? category name).or (defaults.find? category name) := by
  rw [Sheet.tables, ofLayers_eq_foldl]
  exact find?_overlay defaults (Tables.ofTexts d.tokens) category name

/-- The color that a document is compiled with where it refers to a shade. -/
def Document.colorOf? (d : Document) (r : Text × Text) : Option Value :=
  (Sheet.tables none d).find? "colors" (shadeName r)

theorem Document.colorOf?_eq (d : Document) (r : Text × Text) : d.colorOf? r =
    ((Tables.ofTexts d.tokens).find? "colors" (shadeName r)).or
      (defaults.find? "colors" (shadeName r)) :=
  find?_tables d "colors" (shadeName r)

section Tables

variable (source : Text)

theorem areSolid_tables : (Sheet.tables none (Source.parse source)).AreSolid := by
  have own : (Tables.ofTexts (Source.parse source).tokens).AreSolid := by
    refine areSolid_ofTexts fun e he f hf => ?_
    exact (((Source.isWellFormed_parse source).tokens e he).2 f hf).value
  intro category name value found
  rw [find?_tables, Option.or_eq_some_iff] at found
  rcases found with found | ⟨-, found⟩
  · exact own _ _ _ found
  · exact areSolid_defaults _ _ _ found

theorem isWord_tables : ∀ e ∈ (Color.declared (Sheet.tables none (Source.parse source))).entries,
    IsWord e.1 := by
  intro e he
  have found := Color.mem_declared_iff.1 he
  rw [find?_tables, Option.or_eq_some_iff] at found
  rcases found with found | ⟨-, found⟩
  · obtain ⟨table, held, found⟩ := Option.bind_eq_some_iff.1 found
    obtain ⟨d, hd, same⟩ := List.mem_map.1 (Table.mem_of_find held)
    obtain ⟨-, rfl⟩ := Prod.mk.inj same
    obtain ⟨f, hf, same⟩ := List.mem_map.1 (Table.mem_of_find found)
    rw [← (Prod.mk.inj same).1]
    exact (((Source.isWellFormed_parse source).tokens d hd).2 f hf).name
  · obtain ⟨f, hf, same⟩ := mem_colors_of_find? found
    exact same ▸ isWord_of_mem_colors hf

/-- What is shown for a reference is its color. -/
theorem show_colorOf? (r : Text × Text) :
    (Sheet.tables none (Source.parse source)).show "colors" (shadeName r) =
      (((Source.parse source).colorOf? r).map Value.render).getD (shadeName r) := by
  have looked : (Sheet.tables none (Source.parse source)).lookup "colors" (shadeName r) =
      (Source.parse source).colorOf? r := by
    rw [(areSolid_tables source).lookup_eq, find?_tables, Option.or_assoc, Option.or_self,
      Document.colorOf?_eq]
  rw [Tables.show, looked]
  cases (Source.parse source).colorOf? r <;> rfl

end Tables

namespace Color

theorem isPaletteName_shadeName {r : Text × Text} (read : shade? (shadeName r) = some r) :
    isPaletteName (shadeName r) = (r.2.length == 2 || r.2.length == 3) := by
  have shaded : (plainColors.map Prod.fst).contains (shadeName r) = false := by
    rw [Bool.eq_false_iff, ne_eq, List.contains_iff_mem]
    intro listed
    obtain ⟨e, he, same⟩ := List.mem_map.1 listed
    have bare := (plainColors_spec e he).2
    simp [same, shadeName] at bare
  rw [isPaletteName, shaded, read]
  rfl

/-- Only a reference with two or three digits is looked up. -/
theorem place_shadeName {tables : Tables} (names : ∀ e ∈ (declared tables).entries, IsWord e.1)
    {r : Text × Text} (word : IsWord (shadeName r)) (read : shade? (shadeName r) = some r) :
    place tables (shadeName r) =
      if r.2.length = 2 ∨ r.2.length = 3 then tables.show "colors" (shadeName r) else shadeName r := by
  have kept : placeNames (declared tables).entries (shadeName r) = shadeName r := by
    refine placeNames_eq_self fun e he plain => replaceWhole_eq_self (names e he) _ fun h => plain ?_
    obtain same : e.1 = shadeName r := by simpa [pieces_word word] using h
    simp [same, shadeName]
  rw [place, kept, mapWords_word _ word, shownWord, isPaletteName_shadeName read]
  simp only [Bool.or_eq_true, beq_iff_eq]

end Color

/-! ## Linting -/

/-- The hue and the digits of a shade that is reported. -/
def Finding.shade? : Finding → Option (Text × Text)
  | invalidShade hue shade => some (hue, shade)
  | _ => none

namespace Lint

open Source

variable {document : Document} {tables : Tables}

theorem shades_checkShades (tables : Tables) (content : Text) :
    (checkShades tables content).filterMap Finding.shade? =
      (references content).filter fun r =>
        !shades.contains r.2 && (tables.find? "colors" (shadeName r)).isNone := by
  rw [checkShades, references, List.filterMap_filterMap, List.filter_filterMap]
  refine List.filterMap_congr fun p _ => ?_
  cases p with
  | separator c => rfl
  | word w =>
    cases read : shade? w with
    | none => simp [Piece.reference?, read]
    | some r =>
      obtain ⟨hue, digits⟩ := r
      obtain ⟨rfl, -⟩ := Color.shade?_eq_some read
      have name : shadeName (hue, digits) = hue ++ '-' :: digits := rfl
      simp only [Piece.reference?, read, Option.filter_some, Bool.and_assoc]
      by_cases listed : (palette.map Prod.fst).contains hue = true
      · simp only [listed, Bool.true_and, if_true, Option.filter_some, name]
        split <;> rfl
      · simp only [listed, Bool.false_and]
        rfl

/-- On a property line that uses no component, the references are reported that no color has as its
name, each as often as it stands there. -/
theorem shades_checkProperty {content : Text} {here : List Finding}
    (h : checkProperty document tables content = .ok here)
    (own : Component.reference? content = none) :
    here.filterMap Finding.shade? = (references content).filter fun r =>
      !shades.contains r.2 && (tables.find? "colors" (shadeName r)).isNone := by
  unfold checkProperty at h
  rw [own] at h
  obtain ⟨ds, -, h⟩ := bind_ok.1 h
  rw [← Except.ok.inj h, List.filterMap_append, shades_checkShades]
  cases ds <;> exact List.append_nil _

theorem checkLine_of_content {ctx : Context} {line text : Text} (shape : form line = .content text) :
    checkLine document tables ctx line = checkContent document tables ctx text := by
  simp only [form] at shape
  split_ifs at shape with empty comment margin
  · split at shape <;> cases shape
  · cases shape
    simp [checkLine, empty, comment, margin]

theorem target_of_block? {ctx : Context} {block : Header} (h : ctx.block? = some block) :
    ctx.hasTarget = true ∧ ctx.state ≠ some .tokens := by
  unfold Context.block? at h
  split at h
  · rename_i state component
    exact ⟨by simp [Context.hasTarget, state, component], by simp [state]⟩
  · rename_i state selector
    exact ⟨by simp [Context.hasTarget, state, selector], by simp [state]⟩
  · cases h

/-- A line that is added to a block is checked as a property line, if it does not look like the header
of a nested block. -/
theorem checkLine_of_addLine {ctx : Context} {line content : Text} {block : Header}
    (stored : ctx.effect? line = some (.addLine block content)) (plain : blockName? content = none) :
    checkLine document tables ctx line = checkProperty document tables content := by
  unfold Context.effect? at stored
  split at stored
  · cases stored
  · rename_i text shape
    obtain ⟨rfl, nested, open_⟩ :
        text = content ∧ nestedHeader? text = none ∧ ctx.block? = some block := by
      unfold Context.feedEffect? at stored
      split at stored
      · obtain ⟨h, -, same⟩ := Option.map_eq_some_iff.1 stored
        cases same
      · obtain ⟨token, -, same⟩ := Option.map_eq_some_iff.1 stored
        cases same
      · rename_i nested _
        obtain ⟨h, open_, same⟩ := Option.map_eq_some_iff.1 stored
        cases same
        exact ⟨rfl, nested, open_⟩
    obtain ⟨target, state⟩ := target_of_block? open_
    rw [checkLine_of_content shape, checkContent, target, nested, plain, if_neg state]
    rfl
  · cases stored

section Source

variable {source line content : Text} {front back : List Text} {block : Header}

/-- A reference without a color is none to a shade of the palette. -/
theorem not_mem_shades_of_absent {r : Text × Text} (hue : r.1 ∈ palette.map Prod.fst)
    {d : Document} (absent : d.colorOf? r = none) : r.2 ∉ shades := by
  intro listed
  rw [Document.colorOf?_eq, Option.or_eq_none_iff] at absent
  have built_in := (defaults_shade r).2 ⟨hue, listed⟩
  rw [absent.2] at built_in
  cases built_in

/-- The shades that are reported under the number of a property line. -/
theorem shades_lint (cut : lines source = front ++ line :: back)
    (stored : (Reader.run {} front).context.effect? line = some (.addLine block content))
    (plain : blockName? content = none) (own : Component.reference? content = none) :
    ∃ found, lint source = .ok found ∧
      (found.filter (·.line == front.length + 1)).filterMap (·.finding.shade?) =
        (references content).filter fun r => ((parse source).colorOf? r).isNone := by
  have textual := Sheet.isTextual_tables (fun _ => isTextual_of_none) (parse source)
  obtain ⟨found, linted⟩ := lint_ok source
  obtain ⟨here, checked⟩ := checkProperty_ok textual (parse source) content
  have lines : checkLines (parse source) (Sheet.tables none (parse source)) 1 {}
      (front ++ line :: back) = .ok found := cut ▸ linted
  refine ⟨found, linted, ?_⟩
  rw [Nat.add_comm, filter_checkLines lines ((checkLine_of_addLine stored plain).trans checked),
    List.filterMap_map]
  refine (shades_checkProperty checked own).trans (List.filter_congr fun r hr => ?_)
  change (!shades.contains r.2 && ((parse source).colorOf? r).isNone) = _
  cases absent : (parse source).colorOf? r with
  | some value => exact Bool.and_false _
  | none =>
    have other := not_mem_shades_of_absent (Color.word_of_mem_references hr).2.2 absent
    simp [other]

end Source

end Lint

open Source Lint

/-- Take any line of a source that is added to a block and checked as a property line, and that uses no
component. Under its number linting reports as shades, in order and one by one, the references that no
color has as its name. Compiling puts colors in place word by word, and leaves these references as they
are written. Any other reference is replaced by its color if it has two or three digits. If it has fewer
or more, then the source declares the color, and the reference is left as it is written, too. -/
theorem shade_references {source line content : Text} {front back : List Text} {block : Header}
    (cut : lines source = front ++ line :: back)
    (stored : (Reader.run {} front).context.effect? line = some (.addLine block content))
    (plain : blockName? content = none) (own : Component.reference? content = none) :
    ∃ found placed, lint source = .ok found ∧
      (∀ t, Color.resolve (Sheet.tables none (parse source)) t = .ok (placed t)) ∧
      placed content = (pieces content).flatMap (Piece.under placed) ∧
      (found.filter (·.line == front.length + 1)).filterMap (·.finding.shade?) =
        ((references content).filter fun r => ((parse source).colorOf? r).isNone) ∧
      ∀ r ∈ references content,
        ((parse source).colorOf? r = none → placed (shadeName r) = shadeName r) ∧
        ∀ value, (parse source).colorOf? r = some value →
          (r.2.length = 2 ∨ r.2.length = 3 → placed (shadeName r) = value.render) ∧
          (¬ (r.2.length = 2 ∨ r.2.length = 3) → placed (shadeName r) = shadeName r ∧
            (Tables.ofTexts (parse source).tokens).find? "colors" (shadeName r) = some value) := by
  have names := isWord_tables source
  have texts := (Sheet.isTextual_tables (fun _ => isTextual_of_none) (parse source)).1
  obtain ⟨found, linted, reported⟩ := shades_lint cut stored plain own
  refine ⟨found, Color.place _, linted, Color.resolve_eq_place texts,
    (Color.wordwise_place names).of_isCut (Color.isCut_pieces content), reported, fun r hr => ?_⟩
  obtain ⟨word, read, hue⟩ := Color.word_of_mem_references hr
  rw [Color.place_shadeName names word read, show_colorOf?]
  refine ⟨fun absent => ?_, fun value known => ⟨fun usual => ?_, fun odd => ?_⟩⟩
  · rw [absent]
    exact ite_self _
  · rw [if_pos usual, known]
    rfl
  · refine ⟨if_neg odd, ?_⟩
    rw [Document.colorOf?_eq, Option.or_eq_some_iff] at known
    refine known.resolve_right fun ⟨_, built_in⟩ => odd ?_
    have listed := ((defaults_shade r).1 (Option.isSome_iff_exists.2 ⟨value, built_in⟩)).2
    exact (shades_spec r.2 listed).2.2

/-- Of two shades that the palette lacks, one is declared. -/
def mixedShades : Text := "colors:\n  blue-75 #456\np:\n  bg blue-77,blue-75"

theorem shades_mixed :
    lines mixedShades = (["colors:", "  blue-75 #456", "p:"] : List Text) ++
      ("  bg blue-77,blue-75" : Text) :: [] ∧
    (Reader.run {} ["colors:", "  blue-75 #456", "p:"]).context.effect? "  bg blue-77,blue-75" =
      some (.addLine (.style "p") "bg blue-77,blue-75") ∧
    blockName? "bg blue-77,blue-75" = none ∧ Component.reference? "bg blue-77,blue-75" = none ∧
    Color.resolve (Sheet.tables none (parse mixedShades)) "blue-75" = .ok "#456" ∧
    Color.resolve (Sheet.tables none (parse mixedShades)) "blue-77" = .ok "blue-77" ∧
    ∃ found, lint mixedShades = .ok found ∧
      (found.filter (·.line == 4)).filterMap (·.finding.shade?) = [("blue".toList, "77".toList)] := by
  have cut : lines mixedShades = (["colors:", "  blue-75 #456", "p:"] : List Text) ++
      ("  bg blue-77,blue-75" : Text) :: [] := by decide
  have stored : (Reader.run {} ["colors:", "  blue-75 #456", "p:"]).context.effect?
      "  bg blue-77,blue-75" = some (.addLine (.style "p") "bg blue-77,blue-75") := by decide
  have plain : blockName? "bg blue-77,blue-75" = none := by decide
  have own : Component.reference? "bg blue-77,blue-75" = none := by decide
  have listed : references "bg blue-77,blue-75" =
      [("blue".toList, "77".toList), ("blue".toList, "75".toList)] := by decide
  have name : shadeName ("blue".toList, "75".toList) = "blue-75" := by decide
  have name' : shadeName ("blue".toList, "77".toList) = "blue-77" := by decide
  have known : (parse mixedShades).colorOf? ("blue".toList, "75".toList) = some (.text "#456") := by
    rw [Document.colorOf?_eq, Option.or_eq_some_iff]
    exact .inl (by decide)
  have absent : (parse mixedShades).colorOf? ("blue".toList, "77".toList) = none := by
    rw [Document.colorOf?_eq, Option.or_eq_none_iff]
    exact ⟨by decide, find?_defaults_eq_none (by decide +kernel)⟩
  obtain ⟨found, placed, linted, resolved, -, reported, each⟩ :=
    shade_references cut stored plain own
  rw [listed] at reported each
  have second := (each _ (List.mem_cons_of_mem _ List.mem_cons_self)).2 (.text "#456")
  have first := (each _ List.mem_cons_self).1
  rw [name] at second
  rw [name'] at first
  refine ⟨cut, stored, plain, own, (resolved _).trans (congrArg _ ((second known).1 (.inl rfl))),
    (resolved _).trans (congrArg _ (first absent)), found, linted, reported.trans ?_⟩
  rw [List.filter_cons_of_pos (by rw [absent]; rfl),
    List.filter_cons_of_neg (by rw [known]; exact Bool.false_ne_true), List.filter_nil]

def oddShade : Text := "colors:\n  blue-5 #123456\np:\n  bg blue-5"

/-- No name without a hyphen stands in the line. -/
theorem place_oddShade :
    Color.place (Sheet.tables none (parse oddShade)) "bg blue-5" = "bg blue-5" := by
  have declared : ∀ e ∈ (Tables.ofTexts (parse oddShade).tokens).entries, ∀ f ∈ e.2.entries,
      f.1.contains '-' = true := by decide
  have absent : ∀ e ∈ plainColors, .word e.1 ∉ pieces "bg blue-5" := by decide
  have named : Color.placeNames (Color.declared (Sheet.tables none (parse oddShade))).entries
      "bg blue-5" = "bg blue-5" := by
    refine Color.placeNames_eq_self fun e he plain => ?_
    refine Color.replaceWhole_eq_self (isWord_tables oddShade e he) _ ?_
    have found := Color.mem_declared_iff.1 he
    rw [find?_tables, Option.or_eq_some_iff] at found
    rcases found with found | ⟨-, found⟩
    · obtain ⟨table, held, found⟩ := Option.bind_eq_some_iff.1 found
      exact absurd (declared _ (Table.mem_of_find held) _ (Table.mem_of_find found)) plain
    · obtain ⟨f, hf, same⟩ := mem_colors_of_find? found
      rw [← same] at plain ⊢
      exact absent f ((Color.hyphen_or_plain hf).resolve_left plain)
  rw [Color.place, named]
  decide

/-- The declared color is not put in place, and nothing is said about the reference. -/
theorem shades_odd :
    lines oddShade = (["colors:", "  blue-5 #123456", "p:"] : List Text) ++
      ("  bg blue-5" : Text) :: [] ∧
    (Reader.run {} ["colors:", "  blue-5 #123456", "p:"]).context.effect? "  bg blue-5" =
      some (.addLine (.style "p") "bg blue-5") ∧
    blockName? "bg blue-5" = none ∧ Component.reference? "bg blue-5" = none ∧
    references "bg blue-5" = [("blue".toList, "5".toList)] ∧
    (parse oddShade).colorOf? ("blue".toList, "5".toList) = some (.text "#123456") ∧
    Color.resolve (Sheet.tables none (parse oddShade)) "bg blue-5" = .ok "bg blue-5" ∧
    ∃ found, lint oddShade = .ok found ∧
      (found.filter (·.line == 4)).filterMap (·.finding.shade?) = [] := by
  have cut : lines oddShade = (["colors:", "  blue-5 #123456", "p:"] : List Text) ++
      ("  bg blue-5" : Text) :: [] := by decide
  have stored : (Reader.run {} ["colors:", "  blue-5 #123456", "p:"]).context.effect?
      "  bg blue-5" = some (.addLine (.style "p") "bg blue-5") := by decide
  have plain : blockName? "bg blue-5" = none := by decide
  have own : Component.reference? "bg blue-5" = none := by decide
  have listed : references "bg blue-5" = [("blue".toList, "5".toList)] := by decide
  have known : (parse oddShade).colorOf? ("blue".toList, "5".toList) = some (.text "#123456") := by
    rw [Document.colorOf?_eq, Option.or_eq_some_iff]
    exact .inl (by decide)
  have texts := (Sheet.isTextual_tables (fun _ => isTextual_of_none) (parse oddShade)).1
  obtain ⟨found, linted, reported⟩ := shades_lint cut stored plain own
  refine ⟨cut, stored, plain, own, listed, known, ?_, found, linted, reported.trans ?_⟩
  · rw [Color.resolve_eq_place texts, place_oddShade]
  · rw [listed, List.filter_cons_of_neg (by rw [known]; exact Bool.false_ne_true),
      List.filter_nil]

end Stylesheet
