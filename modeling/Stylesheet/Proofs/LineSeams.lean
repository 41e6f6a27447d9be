import Stylesheet.Import.Target
import Stylesheet.Proofs.Sections
import Stylesheet.Proofs.Trim

/-!
# Texts put together at the ends of lines

Import statements are lines of their own, and so are the comments that stand in their places. The
reader goes through a text that is put together at the ends of lines as it does through its parts.

* `run_append_border`: reading two texts that meet between two lines is reading one and then the other;
* `isChain_segments`: the text and the statements of a source meet between two lines;
* `run_marker`: a line that starts with `#` and a space changes nothing in the document;
* `lineless_target`: no statement leads to a file with a line feed in its name.
-/

namespace Stylesheet

open Text

theorem Text.mem_of_mem_split {separator c : Char} {t piece : Text} (h : piece ∈ split separator t)
    (hc : c ∈ piece) : c ∈ t := by
  induction t generalizing piece with
  | nil =>
    rw [split, List.mem_singleton] at h
    simp [h] at hc
  | cons d t ih =>
    obtain ⟨first, rest, pieces⟩ := List.exists_cons_of_ne_nil (split_ne_nil separator t)
    rw [pieces] at ih
    rw [split, pieces] at h
    split at h
    · rcases List.mem_cons.1 h with rfl | h
      · cases hc
      · exact List.mem_cons_of_mem d (ih h hc)
    · rcases List.mem_cons.1 h with rfl | h
      · rcases List.mem_cons.1 hc with rfl | hc
        · exact List.mem_cons_self
        · exact List.mem_cons_of_mem d (ih List.mem_cons_self hc)
      · exact List.mem_cons_of_mem d (ih (List.mem_cons_of_mem first h) hc)

theorem Text.mem_join {c : Char} {separator : Text} {pieces : List Text}
    (h : c ∈ join separator pieces) : c ∈ separator ∨ ∃ piece ∈ pieces, c ∈ piece := by
  induction pieces with
  | nil => simp [join] at h
  | cons first rest ih =>
    cases rest with
    | nil => exact .inr ⟨first, List.mem_cons_self, by simpa [join] using h⟩
    | cons second rest =>
      rw [join_cons_cons, List.mem_append, List.mem_append] at h
      rcases h with (own | between) | later
      · exact .inr ⟨first, List.mem_cons_self, own⟩
      · exact .inl between
      · refine (ih later).imp_right ?_
        rintro ⟨piece, listed, inside⟩
        exact ⟨piece, List.mem_cons_of_mem first listed, inside⟩

theorem Text.split_append_separator (separator : Char) (t u : Text) :
    split separator (t ++ separator :: u) = split separator t ++ split separator u := by
  induction t with
  | nil => simp [split]
  | cons c t ih =>
    obtain ⟨first, rest, pieces⟩ := List.exists_cons_of_ne_nil (split_ne_nil separator t)
    rw [pieces] at ih
    by_cases same : c = separator
    · simp [split, same, ih, pieces]
    · simp [split, same, ih, pieces]

namespace Source

/-- The second text begins where a line of the first one ends. -/
def Border (t u : Text) : Prop :=
  (∀ c ∈ t.getLast?, c = '\n') ∨ ∀ c ∈ u.head?, c = '\n'

theorem border_line (t u : Text) : Border (t ++ "\n") u :=
  .inl (by simp)

theorem run_lines_nil (r : Reader) : r.run (lines []) = r := rfl

theorem run_append_newline (r : Reader) (t u : Text) :
    r.run (lines (t ++ '\n' :: u)) = (r.run (lines t)).run (lines u) := by
  rw [lines, split_append_separator, Reader.run_append]
  rfl

theorem run_append_border {t u : Text} (h : Border t u) (r : Reader) :
    r.run (lines (t ++ u)) = (r.run (lines t)).run (lines u) := by
  rcases h with last | first
  · rcases List.eq_nil_or_concat t with rfl | ⟨front, c, rfl⟩
    · rw [List.nil_append, run_lines_nil]
    · obtain rfl := last c (by simp)
      rw [List.concat_eq_append, List.append_assoc, List.singleton_append, run_append_newline,
        run_append_newline, run_lines_nil]
  · cases u with
    | nil => rw [List.append_nil, run_lines_nil]
    | cons c back =>
      obtain rfl := first c rfl
      have idle := run_append_newline (r.run (lines t)) [] back
      rw [run_lines_nil, List.nil_append] at idle
      rw [run_append_newline, idle]

/-! ## Comments in place of statements -/

theorem isSelector_hash_space {t u : Text} (h : u <+: '#' :: ' ' :: t) :
    isSelector u = false := by
  obtain ⟨back, split⟩ := h
  match u with
  | [] => rfl
  | [c] =>
    obtain ⟨rfl, -⟩ : c = '#' ∧ _ := by simpa using split
    rfl
  | c :: d :: u =>
    obtain ⟨rfl, rfl, -⟩ : c = '#' ∧ d = ' ' ∧ _ := by simpa using split
    have blank : isNameChar ' ' = false := by decide
    simp [isSelector, takeName?, blank]

theorem form_marker (t : Text) : ∃ announced, form ('#' :: ' ' :: t) = .comment announced := by
  have solid : isBlank '#' = false := by decide
  have start : trimStart ('#' :: ' ' :: t) = '#' :: ' ' :: t := trimStart_eq_self (by simp [solid])
  have front : trim ('#' :: ' ' :: t) <+: '#' :: ' ' :: t := by
    rw [trim, start]
    exact trimEnd_front _
  have first : (trim ('#' :: ' ' :: t)).head? = some '#' := by
    rw [head?_trim, start]
    rfl
  have shorter (u : Text) : u.dropLast <+: u := List.dropLast_prefix u
  have cut : dropFinalNewline (trim ('#' :: ' ' :: t)) <+: '#' :: ' ' :: t := by
    unfold dropFinalNewline
    split
    · exact (shorter _).trans front
    · exact front
  have plain : selectorHeader? (dropFinalNewline (trim ('#' :: ' ' :: t))) = none := by
    have refused := isSelector_hash_space ((shorter _).trans cut)
    unfold selectorHeader? beforeColon?
    split
    · simp [refused]
    · rfl
  have comment : isComment (trim ('#' :: ' ' :: t)) (indentation ('#' :: ' ' :: t)) = true := by
    have hash : leads "#" (trim ('#' :: ' ' :: t)) = true := leads_single_iff.2 first
    rw [isComment, hash, plain]
    simp
  have shown : (trim ('#' :: ' ' :: t)).isEmpty = false := by
    rw [List.isEmpty_eq_false_iff]
    intro none
    simp [none] at first
  exact ⟨announced? (trim ('#' :: ' ' :: t)), by simp [form, shown, comment]⟩

/-- Whatever a comment of this form says, it has no effect on what has been read. -/
theorem run_marker {t : Text} (h : '\n' ∉ t) (r : Reader) :
    (r.run (lines ('#' :: ' ' :: t))).document = r.document := by
  have single : lines ('#' :: ' ' :: t) = ['#' :: ' ' :: t] := by
    rw [lines, split_eq_singleton (by simp [h])]
  obtain ⟨announced, comment⟩ := form_marker t
  rw [single, Reader.run, List.foldl_cons, List.foldl_nil, step_form, comment]

theorem run_marker_line {t : Text} (h : '\n' ∉ t) (r : Reader) :
    (r.run (lines ('#' :: ' ' :: t ++ ['\n']))).document = r.document := by
  rw [run_append_border (.inr (by simp)), ← run_marker h r]
  rfl

end Source

namespace Import

/-- How the text and the statements of a source follow each other. -/
def Seam : Segment → Segment → Prop
  | .text content, .statement _ => content.getLast? = some '\n'
  | .statement _, .text content => content.head? = some '\n'
  | _, _ => False

theorem head?_lineEnd? {t rest : Text} (h : lineEnd? t = some rest) : ∀ c ∈ rest.head?, c = '\n' := by
  unfold lineEnd? at h
  split at h
  · obtain rfl := Option.some.inj h
    simp
  · obtain rfl := Option.some.inj h
    simp
  · cases h

theorem closing?_spec {t name rest : Text} (h : closing? t = some (name, rest)) :
    '\n' ∉ name ∧ ∀ c ∈ rest.head?, c = '\n' := by
  induction t generalizing name with
  | nil => simp [closing?] at h
  | cons c t ih =>
    unfold closing? at h
    split at h
    · rename_i rest' ended
      obtain ⟨rfl, rfl⟩ : [] = name ∧ rest' = rest := by simpa using h
      split at ended
      · exact ⟨by simp, head?_lineEnd? ended⟩
      · cases ended
    · split at h
      · cases h
      · rename_i inside
        obtain ⟨⟨name', rest'⟩, found, same⟩ := Option.map_eq_some_iff.1 h
        obtain ⟨rfl, rfl⟩ := Prod.mk.inj same
        obtain ⟨clear, back⟩ := ih found
        exact ⟨by simp [Ne.symm inside, clear], back⟩

/-- A statement names a file without line feeds, and takes the whole rest of its line. -/
theorem statement?_spec {t name rest : Text} (h : statement? t = some (name, rest)) :
    '\n' ∉ name ∧ ∀ c ∈ rest.head?, c = '\n' := by
  unfold statement? at h
  split at h
  · cases h
  · split at h
    · split at h
      · rename_i quoted
        obtain ⟨⟨name', rest'⟩, found, same⟩ := Option.map_eq_some_iff.1 h
        obtain ⟨rfl, rfl⟩ := Prod.mk.inj same
        obtain ⟨clear, back⟩ := closing?_spec found
        have first := bne_iff_ne.1 (Bool.and_eq_true_iff.1 quoted).2
        exact ⟨by simp [Ne.symm first, clear], back⟩
      · cases h
    · cases h

theorem exists_consChar (c : Char) (segs : List Segment) :
    ∃ content rest, consChar c segs = .text (c :: content) :: rest := by
  unfold consChar
  split
  · exact ⟨_, _, rfl⟩
  · exact ⟨[], segs, rfl⟩

theorem statement_mem_consChar {c : Char} {segs : List Segment} {name : Text}
    (h : .statement name ∈ consChar c segs) : .statement name ∈ segs := by
  unfold consChar at h
  split at h
  · simpa using h
  · simpa using h

theorem isChain_consChar {c : Char} {segs : List Segment} (chain : segs.IsChain Seam)
    (start : ∀ name, segs.head? = some (.statement name) → c = '\n') :
    (consChar c segs).IsChain Seam := by
  match segs with
  | [] => exact .singleton _
  | .statement name :: rest =>
    obtain rfl := start name rfl
    exact .cons_cons rfl chain
  | [.text content] => exact .singleton _
  | .text content :: .text other :: rest => exact absurd (List.isChain_cons_cons.1 chain).1 id
  | .text content :: .statement name :: rest =>
    obtain ⟨ended, chain⟩ := List.isChain_cons_cons.1 chain
    refine .cons_cons ?_ chain
    have last : content.getLast? = some '\n' := ended
    simp [Seam, List.getLast?_cons, last]

theorem segmentsFrom_spec (atStart : Bool) (t : Text) :
    (segmentsFrom atStart t).IsChain Seam ∧
      (atStart = false → ∀ name, (segmentsFrom atStart t).head? ≠ some (.statement name)) := by
  fun_induction segmentsFrom atStart t with
  | case1 atStart => exact ⟨.nil, by simp⟩
  | case2 atStart c t name rest found ih =>
    obtain ⟨begins, found⟩ : atStart = true ∧ statement? (c :: t) = some (name, rest) := by
      cases atStart <;> simp_all
    refine ⟨?_, by simp [begins]⟩
    cases rest with
    | nil => simp [segmentsFrom]
    | cons d back =>
      obtain rfl := (statement?_spec found).2 d rfl
      obtain ⟨content, segs, same⟩ : ∃ content segs,
          segmentsFrom false ('\n' :: back) = .text ('\n' :: content) :: segs := by
        rw [segmentsFrom]
        exact exists_consChar _ _
      rw [same] at ih ⊢
      exact .cons_cons rfl ih.1
  | case3 atStart c t missing ih =>
    obtain ⟨content, rest, same⟩ := exists_consChar c (segmentsFrom (c == '\n') t)
    refine ⟨isChain_consChar ih.1 ?_, by simp [same]⟩
    intro name first
    by_contra other
    exact ih.2 (by simpa using other) name first

theorem isChain_segments (source : Text) : (segments source).IsChain Seam :=
  (segmentsFrom_spec true source).1

/-- If text stands as it is and statements are replaced, what comes of a segment ends where a line does. -/
theorem border_segments {put : Segment → Text} (plain : ∀ content, put (.text content) = content)
    {first : Segment} {rest : List Segment} (chain : (first :: rest).IsChain Seam) :
    Source.Border (put first) (rest.flatMap put) := by
  match first, rest with
  | first, [] => exact .inr (by simp)
  | .text content, .statement name :: rest =>
    have last : content.getLast? = some '\n' := (List.isChain_cons_cons.1 chain).1
    exact .inl (by simp [plain, last])
  | .statement name, .text content :: rest =>
    have front : content.head? = some '\n' := (List.isChain_cons_cons.1 chain).1
    exact .inr (by simp [plain, List.head?_append, front])
  | .text _, .text _ :: _ => exact absurd (List.isChain_cons_cons.1 chain).1 id
  | .statement _, .statement _ :: _ => exact absurd (List.isChain_cons_cons.1 chain).1 id

theorem lineless_of_mem_segmentsFrom {atStart : Bool} {t name : Text}
    (h : .statement name ∈ segmentsFrom atStart t) : '\n' ∉ name := by
  fun_induction segmentsFrom atStart t with
  | case1 atStart => cases h
  | case2 atStart c t first rest found ih =>
    rcases List.mem_cons.1 h with same | later
    · obtain rfl := Segment.statement.inj same
      split at found
      · exact (statement?_spec found).1
      · cases found
    · exact ih later
  | case3 atStart c t missing ih => exact ih (statement_mem_consChar h)

/-! ## Names without line feeds -/

/-- No name on the way to a file has a line feed in it. -/
def Lineless (file : Location) : Prop :=
  ∀ name ∈ file, '\n' ∉ name

theorem Lineless.enter {file : Location} (h : Lineless file) {name : Text} (clear : '\n' ∉ name) :
    Lineless (file.enter name) := by
  unfold Location.enter
  split
  · exact fun inner hi => h inner (List.dropLast_subset _ hi)
  · intro inner hi
    rcases List.mem_append.1 hi with old | new
    · exact h inner old
    · rw [List.mem_singleton.1 new]
      exact clear

theorem Lineless.locate {directory : Location} (h : Lineless directory) {p : Path}
    (clear : ∀ name ∈ p.names, '\n' ∉ name) : Lineless (p.locate directory) := by
  have from_ (names : List Text) (start : Location) (h : Lineless start)
      (clear : ∀ name ∈ names, '\n' ∉ name) : Lineless (names.foldl Location.enter start) := by
    induction names generalizing start with
    | nil => exact h
    | cons name names ih =>
      exact ih _ (h.enter (clear name List.mem_cons_self))
        fun inner hi => clear inner (List.mem_cons_of_mem name hi)
  unfold Path.locate
  refine from_ _ _ ?_ clear
  split
  · exact h
  · simp [Lineless]

theorem lineless_target {importer : Location} (h : Lineless importer) {source name : Text}
    (listed : .statement name ∈ segments source) : Lineless (target importer name) := by
  have clear : '\n' ∉ name := lineless_of_mem_segmentsFrom listed
  have written : '\n' ∉ if ends sourceEnding name then name else name ++ sourceEnding := by
    split
    · exact clear
    · simp [clear, sourceEnding]
  apply Lineless.locate
  · exact fun inner hi => h inner (List.dropLast_subset _ hi)
  · intro inner hi feed
    exact written (mem_of_mem_split (List.mem_filter.1 hi).1 feed)

theorem Lineless.name {file : Location} (h : Lineless file) : '\n' ∉ file.name := by
  unfold Location.name
  cases last : file.getLast? with
  | none => simp
  | some name => exact h name (List.mem_of_getLast? last)

theorem Lineless.render {file : Location} (h : Lineless file) : '\n' ∉ file.render := by
  intro feed
  rcases List.mem_append.1 feed with slash | later
  · simp at slash
  · rcases mem_join later with slash | ⟨name, listed, inside⟩
    · simp at slash
    · exact h name listed inside

end Import

end Stylesheet
