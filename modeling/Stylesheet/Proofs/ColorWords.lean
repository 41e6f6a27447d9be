import Stylesheet.Proofs.TextTokens
import Stylesheet.Proofs.Trim

/-!
# Colors word by word

Colors are put in place by one pass over the line for every name, each on what the passes before it
left, and by a last pass for the palette. Values can hold names of further colors, can be empty, and
can start or end with name characters. Still the words of a line do not notice each other: a separator
stays what it is, and no pass sees across it.

* `Wordwise`: a change to texts that works on both sides of a separator by itself;
* `Wordwise.comp`: one such change after another is one, which carries all passes;
* `wordwise_replaceWhole`, `wordwise_mapWords`: every pass is one;
* `Wordwise.of_isCut`: such a change is known from what it does to words;
* `resolve_words`: colors in place, word by word.
-/

namespace Stylesheet.Color

open Text Token

/-! ## Words and separators -/

/-- A text of name characters, of which there is at least one. -/
structure IsWord (w : Text) : Prop where
  nonempty : w ≠ []
  letters : ∀ c ∈ w, isNameChar c = true

theorem isWord_iff {w : Text} : IsWord w ↔ (!w.isEmpty && w.all isNameChar) = true := by
  rw [Bool.and_eq_true, List.all_eq_true, Bool.not_eq_true', List.isEmpty_eq_false_iff]
  exact ⟨fun h => ⟨h.nonempty, h.letters⟩, fun h => ⟨h.1, h.2⟩⟩

instance (w : Text) : Decidable (IsWord w) := decidable_of_iff _ isWord_iff.symm

/-- The pieces are the longest runs of name characters of a line and the characters between them. -/
inductive IsCut : Text → List Piece → Prop
  | nil : IsCut [] []
  | word {w : Text} (word : IsWord w) : IsCut w [.word w]
  | separator {c : Char} {t : Text} {ps : List Piece} (sep : isNameChar c = false) (rest : IsCut t ps) :
      IsCut (c :: t) (.separator c :: ps)
  | wordSeparator {w : Text} {c : Char} {t : Text} {ps : List Piece} (word : IsWord w)
      (sep : isNameChar c = false) (rest : IsCut t ps) :
      IsCut (w ++ c :: t) (.word w :: .separator c :: ps)

def Piece.under (f : Text → Text) : Piece → Text
  | .word letters => f letters
  | .separator c => [c]

theorem IsWord.cons {c : Char} {w : Text} (first : isNameChar c = true) (h : IsWord w) :
    IsWord (c :: w) :=
  ⟨by simp, List.forall_mem_cons.2 ⟨first, h.letters⟩⟩

theorem IsWord.isSolid {w : Text} (h : IsWord w) : IsSolid w where
  ne_nil := h.nonempty
  first c hc := isBlank_eq_false_of_isNameChar (h.letters c (List.mem_of_mem_head? hc))
  last c hc := isBlank_eq_false_of_isNameChar (h.letters c (List.mem_of_mem_getLast? hc))

theorem isCut_pieces (line : Text) : IsCut line (pieces line) := by
  induction line with
  | nil => exact .nil
  | cons c t ih =>
    rw [pieces]
    by_cases named : isNameChar c = true
    · rw [if_pos named]
      have single : IsWord [c] := ⟨by simp, by simpa using named⟩
      generalize pieces t = ps at ih
      cases ih with
      | nil => exact .word single
      | word word => exact .word (word.cons named)
      | separator sep rest => exact .wordSeparator single sep rest
      | wordSeparator word sep rest => exact .wordSeparator (word.cons named) sep rest
    · rw [if_neg named]
      exact .separator (by simpa using named) ih

theorem pieces_append_separator {c : Char} (sep : isNameChar c = false) (a b : Text) :
    pieces (a ++ c :: b) = pieces a ++ .separator c :: pieces b := by
  induction a with
  | nil => simp [pieces, sep]
  | cons d a ih =>
    rw [List.cons_append, pieces, pieces, ih]
    by_cases named : isNameChar d = true
    · rw [if_pos named, if_pos named]
      cases pieces a with
      | nil => rfl
      | cons p ps => cases p <;> rfl
    · rw [if_neg named, if_neg named, List.cons_append]

theorem pieces_word {w : Text} (word : IsWord w) : pieces w = [.word w] := by
  induction w with
  | nil => exact absurd rfl word.nonempty
  | cons c w ih =>
    obtain ⟨first, rest⟩ := List.forall_mem_cons.1 word.letters
    rw [pieces, if_pos first]
    by_cases last : w = []
    · subst last
      rfl
    · rw [ih ⟨last, rest⟩]

theorem IsCut.isWord {w line : Text} {ps : List Piece} (cut : IsCut line ps) (h : .word w ∈ ps) :
    IsWord w := by
  induction cut with
  | nil => cases h
  | word word =>
    obtain rfl : w = _ := by simpa using h
    exact word
  | separator _ _ ih => exact ih (by simpa using h)
  | wordSeparator word _ _ ih =>
    rcases List.mem_cons.1 h with same | h
    · obtain rfl : w = _ := by simpa using same
      exact word
    · exact ih (by simpa using h)

/-! ## Changes that work word by word -/

/-- What stands before and behind a separator is changed by itself. -/
structure Wordwise (f : Text → Text) : Prop where
  nil : f [] = []
  separator : ∀ {c : Char}, isNameChar c = false → ∀ a b, f (a ++ c :: b) = f a ++ c :: f b

theorem Wordwise.id : Wordwise id := ⟨rfl, fun _ _ _ => rfl⟩

theorem Wordwise.comp {f g : Text → Text} (hg : Wordwise g) (hf : Wordwise f) :
    Wordwise (g ∘ f) where
  nil := by simp [hf.nil, hg.nil]
  separator sep a b := by simp [hf.separator sep, hg.separator sep]

theorem Wordwise.of_isCut {f : Text → Text} (hf : Wordwise f) {line : Text} {ps : List Piece}
    (cut : IsCut line ps) : f line = ps.flatMap (Piece.under f) := by
  induction cut with
  | nil => exact hf.nil
  | word => simp [Piece.under]
  | @separator c t ps sep _ ih =>
    have split : f (c :: t) = f [] ++ c :: f t := hf.separator sep [] t
    rw [split, hf.nil, ih]
    rfl
  | wordSeparator _ sep _ ih =>
    rw [hf.separator sep, ih]
    rfl

/-- Changes that do the same to the words of a line do the same to the line. -/
theorem Wordwise.congr {f g : Text → Text} (hf : Wordwise f) (hg : Wordwise g) {line : Text}
    (same : ∀ w, IsWord w → .word w ∈ pieces line → f w = g w) : f line = g line := by
  rw [hf.of_isCut (isCut_pieces line), hg.of_isCut (isCut_pieces line), List.flatMap_def,
    List.flatMap_def]
  congr 1
  refine List.map_congr_left fun p hp => ?_
  cases p with
  | separator c => rfl
  | word w => exact same w ((isCut_pieces line).isWord hp) hp

/-- A line with every word changed by a function. -/
def mapWords (f : Text → Text) (line : Text) : Text :=
  (pieces line).flatMap (Piece.under f)

theorem wordwise_mapWords (f : Text → Text) : Wordwise (mapWords f) where
  nil := rfl
  separator sep a b := by simp [mapWords, pieces_append_separator sep, Piece.under]

theorem mapWords_word (f : Text → Text) {w : Text} (word : IsWord w) : mapWords f w = f w := by
  simp [mapWords, pieces_word word, Piece.under]

/-! ## The pass for a name -/

/-- Whether a name stands in front is known from what comes before the next separator. -/
theorem standsAt_append_separator {c : Char} (sep : isNameChar c = false) {name : Text}
    (letters : ∀ d ∈ name, isNameChar d = true) (after : Bool) (a b : Text) :
    standsAt name after (a ++ c :: b) = standsAt name after a := by
  simp only [standsAt, leads, Bool.and_assoc]
  congr 1
  induction name generalizing a with
  | nil =>
    cases a with
    | nil => simp [endsName, sep]
    | cons d a => simp [endsName]
  | cons n name ih =>
    cases a with
    | nil =>
      have other : n ≠ c := by
        rintro rfl
        cases sep.symm.trans (letters n List.mem_cons_self)
      simp [other]
    | cons d a =>
      have rest := ih (fun e he => letters e (List.mem_cons_of_mem n he)) a
      simp only [List.cons_append, List.isPrefixOf_cons_cons, Bool.and_assoc, List.length_cons,
        List.drop_succ_cons, rest]

section Name

variable {name : Text} (named : IsWord name) (value : Text)
include named

theorem standsAt_nil (after : Bool) : standsAt name after [] = false := by
  obtain ⟨n, rest, rfl⟩ := List.exists_cons_of_ne_nil named.nonempty
  simp [standsAt, leads]

theorem replaceWhole_nil (after : Bool) (skip : Nat) :
    replaceWhole name value after skip [] = [] := by
  cases skip with
  | zero => simp [replaceWhole, standsAt_nil named]
  | succ skip => rfl

/-- Where a name stands in front, its first character is replaced and the others are passed over. -/
theorem replaceWhole_stands {after : Bool} {c : Char} {t : Text}
    (stands : standsAt name after (c :: t) = true) :
    replaceWhole name value after 0 (c :: t) =
      value ++ replaceWhole name value (isNameChar c) (name.length - 1) t := by
  obtain ⟨n, rest, rfl⟩ := List.exists_cons_of_ne_nil named.nonempty
  simp [replaceWhole, stands]

theorem replaceWhole_append_separator {c : Char} (sep : isNameChar c = false) {after : Bool}
    {skip : Nat} {a : Text} (within : skip ≤ a.length) (b : Text) :
    replaceWhole name value after skip (a ++ c :: b) =
      replaceWhole name value after skip a ++ c :: replaceWhole name value false 0 b := by
  induction a generalizing after skip with
  | nil =>
    obtain rfl : skip = 0 := by simpa using within
    have passed : standsAt name after (c :: b) = false := by
      rw [← List.nil_append (c :: b), standsAt_append_separator sep named.letters, standsAt_nil named]
    simp [replaceWhole, passed, sep, standsAt_nil named]
  | cons d a ih =>
    cases skip with
    | succ skip =>
      have within : skip ≤ a.length := by simpa using within
      simpa [replaceWhole] using ih within
    | zero =>
      have same := standsAt_append_separator sep named.letters after (d :: a) b
      rw [List.cons_append] at same ⊢
      by_cases stands : standsAt name after (d :: a) = true
      · have within : name.length - 1 ≤ a.length := by
          simp only [standsAt, leads, Bool.and_eq_true, List.isPrefixOf_iff_prefix] at stands
          have short := stands.1.2.length_le
          simp only [List.length_cons] at short
          omega
        rw [replaceWhole_stands named value (same.trans stands), replaceWhole_stands named value stands,
          ih within, List.append_assoc]
      · simp [replaceWhole, same, stands, ih (Nat.zero_le a.length)]

theorem wordwise_replaceWhole : Wordwise (replaceWhole name value false 0) where
  nil := replaceWhole_nil named value false 0
  separator sep a b := replaceWhole_append_separator named value sep (Nat.zero_le a.length) b

omit named in
theorem standsAt_word {w : Text} (letters : ∀ c ∈ w, isNameChar c = true) :
    standsAt name false w = decide (w = name) := by
  rw [Bool.eq_iff_iff]
  simp only [standsAt, leads, Bool.not_false, Bool.true_and, Bool.and_eq_true,
    List.isPrefixOf_iff_prefix, decide_eq_true_eq]
  constructor
  · rintro ⟨⟨rest, rfl⟩, free⟩
    rw [List.drop_left] at free
    cases rest with
    | nil => rw [List.append_nil]
    | cons c rest => simp [endsName, letters c (by simp)] at free
  · rintro rfl
    simp [endsName]

omit named in
theorem replaceWhole_inside {w : Text} (letters : ∀ c ∈ w, isNameChar c = true) :
    replaceWhole name value true 0 w = w := by
  induction w with
  | nil => simp [replaceWhole, standsAt]
  | cons c w ih =>
    have first : isNameChar c = true := letters c List.mem_cons_self
    have rest := ih fun d hd => letters d (List.mem_cons_of_mem c hd)
    simp [replaceWhole, standsAt, first, rest]

theorem replaceWhole_skip (after : Bool) (t : Text) :
    replaceWhole name value after t.length t = [] := by
  induction t generalizing after with
  | nil => exact replaceWhole_nil named value after 0
  | cons c t ih => exact ih (isNameChar c)

theorem replaceWhole_word {w : Text} (word : IsWord w) :
    replaceWhole name value false 0 w = if w = name then value else w := by
  have stands : standsAt name false w = decide (w = name) := standsAt_word word.letters
  cases w with
  | nil => exact absurd rfl word.nonempty
  | cons c t =>
    obtain ⟨first, rest⟩ := List.forall_mem_cons.1 word.letters
    by_cases same : c :: t = name
    · rw [if_pos same, replaceWhole_stands named value (by simpa [same] using stands)]
      subst same
      simp [replaceWhole_skip named]
    · have inside : replaceWhole name value true 0 t = t := replaceWhole_inside value rest
      simp [replaceWhole, stands, same, first, inside]

/-- A text in which a name is no word is left as it is. -/
theorem replaceWhole_eq_self {line : Text} (absent : .word name ∉ pieces line) :
    replaceWhole name value false 0 line = line := by
  refine (wordwise_replaceWhole named value).congr .id fun w word hw => ?_
  have other : w ≠ name := fun same => absent (same ▸ hw)
  rw [replaceWhole_word named value word, if_neg other, id]

end Name

/-! ## All passes -/

def declared (tables : Tables) : Table Value := (tables.get? "colors").getD ∅

/-- A line with the names that have no hyphen replaced by what their values show, in order. -/
def placeNames (colors : List (Text × Value)) (line : Text) : Text :=
  colors.foldl (fun line e =>
    if e.1.contains '-' then line else replaceWhole e.1 e.2.render false 0 line) line

/-- A word with its palette color shown, if it has the form of one. -/
def shownWord (tables : Tables) (w : Text) : Text :=
  if isPaletteName w then tables.show "colors" w else w

/-- A line with its colors in place, where all of them are texts. -/
def place (tables : Tables) (line : Text) : Text :=
  mapWords (shownWord tables) (placeNames (declared tables).entries line)

section Passes

variable {e : Text × Value} {colors : List (Text × Value)} {line : Text}

theorem placeNames_hyphen (hyphen : e.1.contains '-' = true) :
    placeNames (e :: colors) line = placeNames colors line := by
  simp only [placeNames, List.foldl_cons, if_pos hyphen]

theorem placeNames_pass (plain : ¬ e.1.contains '-' = true) :
    placeNames (e :: colors) line =
      placeNames colors (replaceWhole e.1 e.2.render false 0 line) := by
  simp only [placeNames, List.foldl_cons, if_neg plain]

theorem placeNames_append (front back : List (Text × Value)) :
    placeNames (front ++ back) line = placeNames back (placeNames front line) :=
  List.foldl_append

theorem substituteNames_eq (texts : ∀ e ∈ colors, ∃ t, e.2 = .text t) :
    substituteNames colors line = .ok (placeNames colors line) := by
  induction colors generalizing line with
  | nil => rfl
  | cons e colors ih =>
    obtain ⟨⟨t, text⟩, later⟩ := List.forall_mem_cons.1 texts
    obtain ⟨name, value⟩ := e
    obtain rfl : value = .text t := text
    rw [substituteNames, List.foldlM_cons]
    by_cases hyphen : name.contains '-' = true
    · rw [placeNames_hyphen hyphen, ← ih later]
      simp only [hyphen, if_true]
      rfl
    · rw [placeNames_pass hyphen, ← ih later]
      simp only [hyphen]
      rfl

theorem wordwise_placeNames (names : ∀ e ∈ colors, IsWord e.1) : Wordwise (placeNames colors) := by
  induction colors with
  | nil => exact .id
  | cons e colors ih =>
    obtain ⟨first, later⟩ := List.forall_mem_cons.1 names
    by_cases hyphen : e.1.contains '-' = true
    · have skipped : placeNames (e :: colors) = placeNames colors :=
        funext fun _ => placeNames_hyphen hyphen
      exact skipped ▸ ih later
    · have passed : placeNames (e :: colors) =
          placeNames colors ∘ replaceWhole e.1 e.2.render false 0 :=
        funext fun _ => placeNames_pass hyphen
      exact passed ▸ (ih later).comp (wordwise_replaceWhole first e.2.render)

theorem placeNames_eq_self
    (kept : ∀ e ∈ colors, ¬ e.1.contains '-' = true →
      replaceWhole e.1 e.2.render false 0 line = line) : placeNames colors line = line := by
  induction colors with
  | nil => rfl
  | cons e colors ih =>
    obtain ⟨first, later⟩ := List.forall_mem_cons.1 kept
    by_cases hyphen : e.1.contains '-' = true
    · rw [placeNames_hyphen hyphen, ih later]
    · rw [placeNames_pass hyphen, first hyphen, ih later]

end Passes

theorem textOf_eq_show {category : Text} {tables : Tables} (h : HoldsTexts category tables)
    (built_in : HoldsTexts category defaults) (name : Text) :
    tables.textOf category name = .ok (tables.show category name) := by
  obtain ⟨t, found⟩ := textOf_ok h built_in name
  unfold Tables.textOf at found ⊢
  unfold Tables.show
  cases looked : tables.lookup category name with
  | none => rfl
  | some value =>
    rw [looked] at found
    cases value with
    | text t => rfl
    | parts values => cases found

theorem substitutePalette_eq {tables : Tables} (h : HoldsTexts "colors" tables) (line : Text) :
    substitutePalette tables line = .ok (mapWords (shownWord tables) line) := by
  have each : substitutePiece tables = fun p => pure (p.under (shownWord tables)) := by
    funext p
    cases p with
    | separator c => rfl
    | word w =>
      rw [substitutePiece, Piece.under, shownWord, textOf_eq_show h isTextual_defaults.1]
      split <;> rfl
  rw [substitutePalette, each, List.mapM_pure, mapWords, List.flatMap_def]
  rfl

theorem holdsTexts_iff {tables : Tables} :
    HoldsTexts "colors" tables ↔ ∀ e ∈ (declared tables).entries, ∃ t, e.2 = .text t := by
  unfold HoldsTexts declared
  cases tables.get? "colors" with
  | none => exact iff_of_true (fun table found => nomatch found) fun e he => absurd he List.not_mem_nil
  | some table => simp

theorem resolve_eq_place {tables : Tables} (h : HoldsTexts "colors" tables) (line : Text) :
    resolve tables line = .ok (place tables line) :=
  bind_ok.2 ⟨_, substituteNames_eq (holdsTexts_iff.1 h), substitutePalette_eq h _⟩

theorem wordwise_place {tables : Tables} (names : ∀ e ∈ (declared tables).entries, IsWord e.1) :
    Wordwise (place tables) :=
  (wordwise_mapWords (shownWord tables)).comp (wordwise_placeNames names)

/-! ## Words that are no colors -/

/-- A color of the palette: a hue with two or three digits behind a hyphen, or one without shades. -/
def IsPalette (w : Text) : Prop :=
  w ∈ (["white", "black", "transparent"] : List Text) ∨
    ∃ hue digits, w = hue ++ '-' :: digits ∧ hue ≠ [] ∧ (∀ c ∈ hue, c.isLower = true) ∧
      (∀ c ∈ digits, isDigit c = true) ∧ (digits.length = 2 ∨ digits.length = 3)

theorem shade?_eq_some {w hue digits : Text} (h : shade? w = some (hue, digits)) :
    w = hue ++ '-' :: digits ∧ hue ≠ [] ∧ (∀ c ∈ hue, c.isLower = true) ∧
      ∀ c ∈ digits, isDigit c = true := by
  unfold shade? at h
  split at h
  · rename_i c rest d tail taken dropped
    split at h
    · rename_i all
      obtain ⟨rfl, rfl⟩ : c :: rest = hue ∧ d :: tail = digits := by simpa using h
      refine ⟨?_, by simp, ?_, by simpa using all⟩
      · rw [← taken, ← dropped, List.takeWhile_append_dropWhile]
      · exact List.all_eq_true.1 (taken ▸ List.all_takeWhile)
    · cases h
  · cases h

theorem isPalette_of_isPaletteName {w : Text} (h : isPaletteName w = true) : IsPalette w := by
  rcases Bool.or_eq_true_iff.1 h with plain | shaded
  · exact .inl (by simpa [plainColors] using plain)
  · right
    split at shaded
    · rename_i hue digits found
      obtain ⟨split, nonempty, lower, all⟩ := shade?_eq_some found
      exact ⟨hue, digits, split, nonempty, lower, all, by simpa using shaded⟩
    · cases shaded

def shadeName (r : Text × Text) : Text := r.1 ++ '-' :: r.2

/-- A built-in color is a hue in one of its shades, or one without shades. -/
theorem mem_colors {e : Text × Text} (h : e ∈ colors) :
    (∃ row ∈ palette, ∃ shade ∈ shades, e.1 = shadeName (row.1, shade)) ∨ e ∈ plainColors := by
  rcases List.mem_append.1 h with shaded | plain
  · obtain ⟨row, hr, listed⟩ := List.mem_flatMap.1 shaded
    obtain ⟨⟨shade, value⟩, paired, rfl⟩ := List.mem_map.1 listed
    exact .inl ⟨row, hr, shade, (List.of_mem_zip paired).1, by simp [shadeName]⟩
  · exact .inr plain

theorem hyphen_or_plain {e : Text × Text} (h : e ∈ colors) :
    e.1.contains '-' = true ∨ e ∈ plainColors := by
  rcases mem_colors h with ⟨row, -, shade, -, same⟩ | plain
  · exact .inl (by simp [same, shadeName])
  · exact .inr plain

/-- The names of all colors are words and their values texts. Then a line has a form with its colors in
place, in which the separators of the line stand as they are, and between them its words, each with
colors in place as if it stood alone. A word that is no name without a hyphen and no color of the
palette stays. -/
theorem resolve_words {tables : Tables} (names : ∀ e ∈ (declared tables).entries, IsWord e.1)
    (texts : HoldsTexts "colors" tables) :
    ∃ placed : Text → Text, (∀ line, resolve tables line = .ok (placed line)) ∧
      (∀ line, IsCut line (pieces line) ∧ placed line = (pieces line).flatMap (Piece.under placed)) ∧
      ∀ w, IsWord w → (w ∈ (declared tables).keys → '-' ∈ w) → ¬ IsPalette w → placed w = w := by
  refine ⟨place tables, resolve_eq_place texts, fun line => ?_, fun w word unnamed plain => ?_⟩
  · exact ⟨isCut_pieces line, (wordwise_place names).of_isCut (isCut_pieces line)⟩
  · have kept : placeNames (declared tables).entries w = w := by
      refine placeNames_eq_self fun e he hyphen => ?_
      refine replaceWhole_eq_self (names e he) _ fun h => hyphen ?_
      obtain rfl : e.1 = w := by simpa [pieces_word word] using h
      exact List.contains_iff_mem.2 (unnamed (List.mem_map_of_mem he))
    have shown : isPaletteName w = false := by
      simpa using mt isPalette_of_isPaletteName plain
    rw [place, kept, mapWords_word _ word, shownWord, shown]
    rfl

/-- Colors whose values hold the names of others, before and behind their own place. -/
def chained : Tables :=
  .ofTexts (.ofList [("colors", .ofList [("edge", "ink line"), ("ink", "edge"), ("line", "")])])

/-- The value that comes in for `edge` is changed twice, but not together with the word behind it. -/
theorem resolve_chained : (∀ e ∈ (declared chained).entries, IsWord e.1) ∧
    HoldsTexts "colors" chained ∧ resolve chained "edge,ink" = .ok "edge ,edge" := by
  have names : ∀ e ∈ (declared chained).entries, IsWord e.1 := by decide +kernel
  have texts : HoldsTexts "colors" chained := holdsTexts_ofTexts "colors" _
  obtain ⟨placed, total, cut, -⟩ := resolve_words names texts
  have alone (w : Text) : placed w = place chained w :=
    Except.ok.inj ((total w).symm.trans (resolve_eq_place texts w))
  have edge : placed "edge" = "edge " := (alone "edge").trans (by decide +kernel)
  have ink : placed "ink" = "edge" := (alone "ink").trans (by decide +kernel)
  have pieces : pieces "edge,ink" = [.word "edge", .separator ',', .word "ink"] := by decide +kernel
  refine ⟨names, texts, ?_⟩
  rw [total, (cut "edge,ink").2, pieces]
  simp only [List.flatMap_cons, Piece.under, edge, ink]
  rfl

end Stylesheet.Color
