import Mathlib.Data.List.Chain
import Stylesheet.Proofs.LineSeams
import Stylesheet.Proofs.RevivedImports

/-!
# Lines of a source with its imports in place

Putting imports in place takes every import statement away and writes none: no line of the result is one
by itself. A statement may go on over several lines, and so may what is put in its place, but both begin
and end where lines do.

* `Writes`: the form of an import statement, as the reader of statements takes it;
* `isStatement_first_line`: a text between statements does not begin with a line that is one;
* `statementFree_text`: the text between the statements of a source has no such line;
* `statementFree_append`: texts without such lines can be put together at the ends of lines;
* `resolved_statementFree`: so a root file with its imports in place has none.
-/

namespace Stylesheet.Import

open Text Source

/-- Whether a character may stand behind an import statement on its line. -/
def isTrailing (c : Char) : Bool :=
  c == ' ' || c == '\t' || c == '\r'

/-- A text is an import statement for a file: the keyword, blanks, the name between quotes, and what may
stand behind it. -/
inductive Writes (name : Text) : Text → Prop
  | intro {gap trail : Text} {opening closing : Char} (apart : gap ≠ [])
      (blank : isBlankText gap = true) (opens : isNameQuote opening = true) (named : name ≠ [])
      (single : '\n' ∉ name) (closes : isNameQuote closing = true)
      (trailing : trail.all isTrailing = true) :
      Writes name ("@import" ++ (gap ++ opening :: (name ++ closing :: trail)))

theorem lineEnd?_eq_some {t rest : Text} (h : lineEnd? t = some rest) :
    ∃ trail : Text, t = trail ++ rest ∧ trail.all isTrailing = true := by
  have whole : t.takeWhile isTrailing ++ t.dropWhile isTrailing = t :=
    List.takeWhile_append_dropWhile
  have trailing : (t.takeWhile isTrailing).all isTrailing = true := by
    rw [List.all_eq_true]
    intro c hc
    exact List.mem_takeWhile_imp hc
  have behind : t.dropWhile isTrailing = rest := by
    unfold lineEnd? at h
    split at h
    · rename_i none
      exact none.trans (Option.some.inj h)
    · rename_i feed
      exact feed.trans (Option.some.inj h)
    · cases h
  exact ⟨t.takeWhile isTrailing, by rw [← behind, whole], trailing⟩

theorem lineEnd?_append {trail rest : Text} (trailing : trail.all isTrailing = true)
    (border : ∀ c ∈ rest.head?, c = '\n') : lineEnd? (trail ++ rest) = some rest := by
  have stops : rest.dropWhile isTrailing = rest := by
    cases rest with
    | nil => rfl
    | cons c rest =>
      obtain rfl := border c rfl
      rfl
  have skipped : (trail ++ rest).dropWhile isTrailing = rest := by
    rw [List.dropWhile_append_of_pos (List.all_eq_true.1 trailing), stops]
  unfold lineEnd?
  split
  · rename_i none
    exact congrArg some (none.symm.trans skipped)
  · rename_i feed
    exact congrArg some (feed.symm.trans skipped)
  · rename_i none feed
    cases rest with
    | nil => exact absurd skipped none
    | cons c rest =>
      obtain rfl := border c rfl
      exact absurd skipped (feed rest)

theorem closing?_eq_some {t name rest : Text} (h : closing? t = some (name, rest)) :
    ∃ closing trail, t = name ++ closing :: (trail ++ rest) ∧ isNameQuote closing = true ∧
      trail.all isTrailing = true := by
  induction t generalizing name with
  | nil => simp [closing?] at h
  | cons c t ih =>
    unfold closing? at h
    split at h
    · rename_i rest' ended
      obtain ⟨rfl, rfl⟩ : [] = name ∧ rest' = rest := by simpa using h
      split at ended
      · rename_i quote
        obtain ⟨trail, rfl, trailing⟩ := lineEnd?_eq_some ended
        exact ⟨c, trail, rfl, quote, trailing⟩
      · cases ended
    · split at h
      · cases h
      · obtain ⟨⟨name', rest'⟩, found, same⟩ := Option.map_eq_some_iff.1 h
        obtain ⟨rfl, rfl⟩ := Prod.mk.inj same
        obtain ⟨closing, trail, rfl, quote, trailing⟩ := ih found
        exact ⟨closing, trail, rfl, quote, trailing⟩

/-- A name ends at the first quote that nothing else follows on its line, so perhaps earlier than where
it is known to end. -/
theorem isSome_closing? {name trail rest : Text} {closing : Char} (single : '\n' ∉ name)
    (quote : isNameQuote closing = true) (trailing : trail.all isTrailing = true)
    (border : ∀ c ∈ rest.head?, c = '\n') :
    (closing? (name ++ closing :: (trail ++ rest))).isSome = true := by
  induction name with
  | nil => simp [closing?, quote, lineEnd?_append trailing border]
  | cons c name ih =>
    obtain ⟨inside, single⟩ := not_or.1 (mt List.mem_cons.2 single)
    rw [List.cons_append, closing?]
    split
    · rfl
    · rw [if_neg (Ne.symm inside), Option.isSome_map]
      exact ih single

theorem isBlank_eq_false_of_isNameQuote {c : Char} (h : isNameQuote c = true) :
    isBlank c = false := by
  obtain rfl | rfl : c = '"' ∨ c = '\'' := by simpa [isNameQuote] using h
  all_goals decide

/-- What is taken for a statement is one, and it ends with its line. -/
theorem statement?_eq_some {t name rest : Text} (h : statement? t = some (name, rest)) :
    ∃ text, Writes name text ∧ t = text ++ rest := by
  have single := (statement?_spec h).1
  unfold statement? at h
  split at h
  · cases h
  · rename_i behind lead
    split at h
    · rename_i b gap opening first inner gapped opened
      split at h
      · rename_i quoted
        obtain ⟨⟨name', rest'⟩, found, same⟩ := Option.map_eq_some_iff.1 h
        obtain ⟨rfl, rfl⟩ := Prod.mk.inj same
        obtain ⟨closing, trail, rfl, quote, trailing⟩ := closing?_eq_some found
        have whole : behind = behind.takeWhile isBlank ++ behind.dropWhile isBlank :=
          List.takeWhile_append_dropWhile.symm
        have kept : t = "@import" ++ behind := by
          unfold dropLead? at lead
          split at lead
          · rename_i leads_
            obtain rfl := Option.some.inj lead
            exact (List.prefix_iff_eq_append.1 (List.isPrefixOf_iff_prefix.1 leads_)).symm
          · cases lead
        have apart : behind.takeWhile isBlank ≠ [] := by simp [gapped]
        have blank : isBlankText (behind.takeWhile isBlank) = true := by
          rw [isBlankText_iff]
          intro c hc
          exact List.mem_takeWhile_imp hc
        refine ⟨_, .intro apart blank (Bool.and_eq_true_iff.1 quoted).1
          (List.cons_ne_nil first name') single quote trailing, ?_⟩
        rw [kept]
        conv_lhs => rw [whole, opened]
        simp
      · cases h
    · cases h

/-- A statement is found if its line ends behind it. -/
theorem isSome_statement? {name text rest : Text} (h : Writes name text)
    (border : ∀ c ∈ rest.head?, c = '\n') : (statement? (text ++ rest)).isSome = true := by
  obtain ⟨apart, blank, opens, named, single, closes, trailing⟩ := h
  rename_i gap trail opening closing
  obtain ⟨first, name, rfl⟩ := List.exists_cons_of_ne_nil named
  obtain ⟨b, gap, rfl⟩ := List.exists_cons_of_ne_nil apart
  obtain ⟨inside, single⟩ := not_or.1 (mt List.mem_cons.2 single)
  have blanks : ∀ c ∈ b :: gap, isBlank c = true := isBlankText_iff.1 blank
  have shown : isBlank opening = false := isBlank_eq_false_of_isNameQuote opens
  generalize tail : opening :: (first :: name ++ closing :: trail) ++ rest = back
  have lead : dropLead? "@import" ("@import" ++ (b :: gap ++ back)) = some (b :: gap ++ back) :=
    dropLead?_append _ _
  have gapped : (b :: gap ++ back).takeWhile isBlank = b :: gap := by
    rw [List.takeWhile_append_of_pos blanks, ← tail]
    simp [shown]
  have opened : (b :: gap ++ back).dropWhile isBlank =
      opening :: first :: (name ++ closing :: (trail ++ rest)) := by
    rw [List.dropWhile_append_of_pos blanks, ← tail]
    simp [shown]
  have found := isSome_closing? single closes trailing border
  have first_ : (isNameQuote opening && first != '\n') = true := by
    simp [opens, Ne.symm inside]
  have whole : "@import" ++ (b :: gap ++ opening :: (first :: name ++ closing :: trail)) ++ rest =
      "@import" ++ (b :: gap ++ back) := by
    rw [← tail]
    simp
  rw [whole, statement?, lead]
  simp only [gapped, opened, first_, if_true, Option.isSome_map, found]

theorem isStatement_nil : isStatement [] = false := rfl

/-- A line is a statement by itself exactly if it is written as one. -/
theorem isStatement_iff {line : Text} (single : '\n' ∉ line) :
    isStatement line = true ↔ ∃ name, Writes name line := by
  constructor
  · intro h
    obtain ⟨⟨name, rest⟩, found⟩ := Option.isSome_iff_exists.1 h
    obtain ⟨text, written, rfl⟩ := statement?_eq_some found
    have last : rest = [] := by
      cases rest with
      | nil => rfl
      | cons c rest =>
        obtain rfl := (statement?_spec found).2 c rfl
        simp at single
    rw [last, List.append_nil]
    exact ⟨name, written⟩
  · rintro ⟨name, written⟩
    have found := @isSome_statement? name line [] written (by simp)
    rwa [List.append_nil] at found

/-! ## Texts without statements -/

/-- No line of the text is an import statement by itself. -/
def StatementFree (t : Text) : Prop :=
  ∀ line ∈ lines t, isStatement line = false

theorem statementFree_nil : StatementFree [] := by
  intro line listed
  rw [List.mem_singleton.1 listed, isStatement_nil]

theorem statementFree_newline {t u : Text} :
    StatementFree (t ++ '\n' :: u) ↔ StatementFree t ∧ StatementFree u := by
  simp only [StatementFree, lines, split_append_separator, List.mem_append, or_imp, forall_and]

theorem statementFree_append {t u : Text} (border : Border t u) (ht : StatementFree t)
    (hu : StatementFree u) : StatementFree (t ++ u) := by
  rcases border with last | first
  · rcases List.eq_nil_or_concat t with rfl | ⟨front, c, rfl⟩
    · exact hu
    · obtain rfl := last c (by simp)
      rw [List.concat_eq_append] at ht ⊢
      rw [List.append_assoc, List.singleton_append]
      exact statementFree_newline.2 ⟨(statementFree_newline.1 ht).1, hu⟩
  · cases u with
    | nil => rwa [List.append_nil]
    | cons c back =>
      obtain rfl := first c rfl
      have later : StatementFree back := (statementFree_newline (t := []).1 hu).2
      exact statementFree_newline.2 ⟨ht, later⟩

/-- The first line of a text, which its end or a line feed follows. -/
theorem exists_first_line (t : Text) :
    ∃ line rest, (lines t).head? = some line ∧ t = line ++ rest ∧ ∀ c ∈ rest.head?, c = '\n' := by
  induction t with
  | nil => exact ⟨[], [], rfl, rfl, by simp⟩
  | cons c t ih =>
    by_cases feed : c = '\n'
    · exact ⟨[], c :: t, by simp [lines, split, feed], rfl, by simp [feed]⟩
    · obtain ⟨line, rest, first, rfl, border⟩ := ih
      obtain ⟨other, later, pieces⟩ :=
        List.exists_cons_of_ne_nil (split_ne_nil '\n' (line ++ rest))
      rw [lines, pieces] at first
      obtain rfl := Option.some.inj first
      exact ⟨c :: other, rest, by simp [lines, split, feed, pieces], rfl, border⟩

/-- If no statement is found where a text begins, its first line is none. -/
theorem isStatement_first_line {t line : Text} (missing : statement? t = none)
    (first : (lines t).head? = some line) : isStatement line = false := by
  obtain ⟨line', rest, first', rfl, border⟩ := exists_first_line t
  obtain rfl := Option.some.inj (first.symm.trans first')
  have single : '\n' ∉ line := not_mem_of_mem_split (List.mem_of_head? first)
  rw [Bool.eq_false_iff]
  intro statement
  obtain ⟨name, written⟩ := (isStatement_iff single).1 statement
  have found := isSome_statement? written border
  rw [missing] at found
  cases found

theorem head?_lines_cons {c : Char} {t u : Text} (same : (lines t).head? = (lines u).head?) :
    (lines (c :: t)).head? = (lines (c :: u)).head? := by
  obtain ⟨first, rest, pieces⟩ := List.exists_cons_of_ne_nil (split_ne_nil '\n' t)
  obtain ⟨first', rest', pieces'⟩ := List.exists_cons_of_ne_nil (split_ne_nil '\n' u)
  simp only [lines, pieces, pieces', List.head?_cons, Option.some.injEq] at same
  by_cases feed : c = '\n'
  · simp [lines, split, feed]
  · simp [lines, split, feed, pieces, pieces', same]

theorem tail_lines_cons {c : Char} (inside : c ≠ '\n') (t : Text) :
    (lines (c :: t)).tail = (lines t).tail := by
  obtain ⟨first, rest, pieces⟩ := List.exists_cons_of_ne_nil (split_ne_nil '\n' t)
  simp [lines, split, inside, pieces]

theorem segmentsFrom_eq_nil {atStart : Bool} {t : Text} (h : segmentsFrom atStart t = []) :
    t = [] := by
  cases t with
  | nil => rfl
  | cons c t =>
    rw [segmentsFrom] at h
    split at h
    · cases h
    · obtain ⟨content, rest, same⟩ := exists_consChar c (segmentsFrom (c == '\n') t)
      cases same.symm.trans h

/-- A character in front of segments belongs to the text that begins there, or is one by itself. -/
theorem text_mem_consChar {c : Char} {segs : List Segment} {content : Text}
    (h : .text content ∈ consChar c segs) :
    .text content ∈ segs ∨ content = [c] ∨
      ∃ inner rest, segs = .text inner :: rest ∧ content = c :: inner := by
  unfold consChar at h
  split at h
  · rename_i inner rest
    rcases List.mem_cons.1 h with same | later
    · exact .inr (.inr ⟨inner, rest, rfl, Segment.text.inj same⟩)
    · exact .inl (List.mem_cons_of_mem _ later)
  · rcases List.mem_cons.1 h with same | later
    · exact .inr (.inl (Segment.text.inj same))
    · exact .inl later

theorem statement?_eq_none_of_text {t content : Text} {rest : List Segment}
    (h : segmentsFrom true t = .text content :: rest) : statement? t = none := by
  cases t with
  | nil => rfl
  | cons c t =>
    rw [segmentsFrom] at h
    split at h
    · cases h
    · rename_i missing
      exact missing

/-- A text that goes up to a statement has all of its first line. -/
theorem head?_lines_segmentsFrom {atStart : Bool} {t content : Text} {rest : List Segment}
    (h : segmentsFrom atStart t = .text content :: rest) :
    (lines content).head? = (lines t).head? := by
  fun_induction segmentsFrom atStart t generalizing content rest with
  | case1 atStart => cases h
  | case2 atStart c t name behind found ih => cases h
  | case3 atStart c t missing ih =>
    by_cases feed : c = '\n'
    · obtain ⟨inner, segs, same⟩ := exists_consChar c (segmentsFrom (c == '\n') t)
      obtain ⟨rfl, -⟩ : c :: inner = content ∧ segs = rest := by simpa using same.symm.trans h
      simp [lines, split, feed]
    · have inside : (c == '\n') = false := by simpa using feed
      rw [inside] at ih h
      cases later : segmentsFrom false t with
      | nil =>
        obtain ⟨rfl, -⟩ : [c] = content ∧ [] = rest := by simpa [later, consChar] using h
        rw [segmentsFrom_eq_nil later]
      | cons segment segs =>
        cases segment with
        | statement name =>
          exact absurd (congrArg List.head? later) ((segmentsFrom_spec false t).2 rfl name)
        | text inner =>
          obtain ⟨rfl, -⟩ : c :: inner = content ∧ segs = rest := by simpa [later, consChar] using h
          exact head?_lines_cons (ih later)

theorem isStatement_later_line {atStart : Bool} {t content line : Text}
    (h : .text content ∈ segmentsFrom atStart t) (listed : line ∈ (lines content).tail) :
    isStatement line = false := by
  fun_induction segmentsFrom atStart t generalizing content with
  | case1 atStart => cases h
  | case2 atStart c t name rest found ih =>
    rcases List.mem_cons.1 h with same | later
    · cases same
    · exact ih later listed
  | case3 atStart c t missing ih =>
    rcases text_mem_consChar h with later | rfl | ⟨inner, rest, begun, rfl⟩
    · exact ih later listed
    · by_cases feed : c = '\n'
      · obtain rfl : line = [] := by simpa [lines, split, feed] using listed
        exact isStatement_nil
      · simp [lines, split, feed] at listed
    · by_cases feed : c = '\n'
      · -- The line behind the line feed begins where no statement was found.
        subst feed
        have own : line ∈ lines inner := by simpa [lines, split] using listed
        obtain ⟨first, others, pieces⟩ := List.exists_cons_of_ne_nil (split_ne_nil '\n' inner)
        rw [lines, pieces] at own
        rcases List.mem_cons.1 own with rfl | behind
        · apply isStatement_first_line (statement?_eq_none_of_text begun)
          rw [← head?_lines_segmentsFrom begun, lines, pieces]
          rfl
        · exact ih (begun ▸ List.mem_cons_self) (by rw [lines, pieces]; exact behind)
      · rw [tail_lines_cons feed] at listed
        exact ih (begun ▸ List.mem_cons_self) listed

theorem statementFree_text {source content : Text} (h : .text content ∈ segments source) :
    StatementFree content := by
  intro line listed
  obtain ⟨first, others, pieces⟩ := List.exists_cons_of_ne_nil (split_ne_nil '\n' content)
  rw [lines, pieces] at listed
  rcases List.mem_cons.1 listed with rfl | behind
  · -- The text begins the source, or the line feed behind a statement begins the text.
    obtain ⟨before, after, whole⟩ := List.append_of_mem h
    rcases List.eq_nil_or_concat before with rfl | ⟨front, segment, rfl⟩
    · apply isStatement_first_line (statement?_eq_none_of_text whole)
      rw [← head?_lines_segmentsFrom whole, lines, pieces]
      rfl
    · have chain := isChain_segments source
      rw [whole, List.concat_eq_append, List.append_assoc, List.singleton_append] at chain
      have seam : Seam segment (.text content) :=
        (List.isChain_append_cons_cons.1 chain).2.1
      cases segment with
      | text other => exact seam.elim
      | statement name =>
        obtain ⟨rest, rfl⟩ := List.head?_eq_some_iff.1 seam
        obtain ⟨rfl, -⟩ : [] = line ∧ _ := by simpa [split] using pieces
        exact isStatement_nil
  · exact isStatement_later_line h (by rw [lines, pieces]; exact behind)

/-! ## Imports in place -/

/-- A source has no statement left in it if none is in what its statements are replaced by. -/
theorem statementFree_replaced (put : Segment → Text)
    (plain : ∀ content, put (.text content) = content) {source : Text}
    (each : ∀ name, .statement name ∈ segments source → StatementFree (put (.statement name))) :
    StatementFree ((segments source).flatMap put) := by
  have put_free : ∀ segment ∈ segments source, StatementFree (put segment) := by
    intro segment hs
    cases segment with
    | text content =>
      rw [plain]
      exact statementFree_text hs
    | statement name => exact each name hs
  have chain := isChain_segments source
  generalize segments source = segs at put_free chain
  induction segs with
  | nil => exact statementFree_nil
  | cons first rest ih =>
    have others := ih (fun segment hs => put_free segment (List.mem_cons_of_mem first hs))
      chain.of_cons
    exact statementFree_append (border_segments plain chain) (put_free first List.mem_cons_self) others

/-- A comment in place of a statement is none itself. -/
theorem statementFree_comment {t : Text} (single : '\n' ∉ t) : StatementFree ('#' :: t) := by
  intro line listed
  rw [lines, split_eq_singleton (by simp [single]), List.mem_singleton] at listed
  rw [listed]
  rfl

theorem statementFree_opened {file : Location} (h : Lineless file) {inner : Text}
    (free : StatementFree inner) :
    StatementFree ("# Imported from " ++ file.name ++ "\n" ++ inner) := by
  have single : '\n' ∉ (" Imported from " : Text) ++ file.name := by
    rw [List.mem_append, not_or]
    exact ⟨by decide, h.name⟩
  rw [List.append_assoc]
  exact statementFree_newline.2 ⟨statementFree_comment single, free⟩

theorem statementFree_failed {file : Location} (h : Lineless file) :
    StatementFree ("# Failed to import: " ++ file.render) := by
  have single : '\n' ∉ (" Failed to import: " : Text) ++ file.render := by
    rw [List.mem_append, not_or]
    exact ⟨by decide, h.render⟩
  exact statementFree_comment single

variable {fs : FileSystem} {root file : Location} {source : Text}

theorem statementFree_fragments (h : Lineless file) {imported : Location → List Fragment}
    (each : ∀ next, Lineless next → StatementFree ((imported next).flatMap Fragment.render)) :
    StatementFree (((segments source).flatMap (Segment.fragments file imported)).flatMap
      Fragment.render) := by
  rw [List.flatMap_assoc]
  apply statementFree_replaced fun segment =>
    (segment.fragments file imported).flatMap Fragment.render
  · intro content
    exact List.append_nil content
  · intro name listed
    rw [Segment.fragments]
    split
    · exact statementFree_nil
    · exact each _ (lineless_target h listed)

theorem statementFree_includeFile (active : List Location) (importer file : Location)
    (h : Lineless file) :
    StatementFree ((includeFile fs active importer file).flatMap Fragment.render) := by
  fun_induction includeFile fs active importer file with
  | case1 active importer file open_ =>
    have whole : [Fragment.circular file].flatMap Fragment.render =
        "# Imported from " ++ file.name ++ "\n" := List.append_nil _
    have free := statementFree_opened h statementFree_nil
    rw [List.append_nil] at free
    rw [whole]
    exact free
  | case2 active importer file closed fault read =>
    have whole : [Fragment.failed file fault].flatMap Fragment.render =
        "# Failed to import: " ++ file.render := List.append_nil _
    rw [whole]
    exact statementFree_failed h
  | case3 active importer file closed source read ih =>
    rw [render_opened]
    exact statementFree_opened h (statementFree_fragments h ih)

/-- A root file that can be read comes to a text, and no line of that text is an import statement, as
the reader of statements sees it or by its form: not where files import each other, where a file is
imported twice or cannot be read, nor where files end without a line feed. Line feeds must not stand in
the names on the way to the root file, nor may a file that is reached ask for a name that no file can
have. -/
theorem resolved_statementFree (read : fs.read root = .ok source) (lineless : Lineless root)
    (usable : ∀ file, Reaches fs root file → hasUnusable fs file = false) :
    ∃ text, (Account.ofFile fs root).source = .ok text ∧
      ∀ line ∈ lines text, isStatement line = false ∧ ∀ name, ¬ Writes name line := by
  obtain ⟨text, resolved⟩ := source_of_usable usable read
  have free : StatementFree text := by
    rw [source_eq_render read resolved]
    exact statementFree_fragments lineless
      fun next h => statementFree_includeFile [root] root next h
  refine ⟨text, resolved, fun line listed => ⟨free line listed, fun name written => ?_⟩⟩
  have single : '\n' ∉ line := not_mem_of_mem_split listed
  have statement := (isStatement_iff single).2 ⟨name, written⟩
  rw [free line listed] at statement
  cases statement

/-- A file whose statements go over two lines and end without a line feed, with one for a file that is
not there. The file that is there imports the first one and itself, and ends with the keyword alone. -/
def frayed : FileSystem where
  entries :=
    [(inRoot "main.tom",
        .file (Utf8.encode "@import\n \"part\" \t\n\"gone\"\n@import 'gone'") 0),
     (inRoot "part.tom", .file (Utf8.encode "@import \"main\"\n@import 'part'\n@import") 1)]
  clock := 2

theorem resolved_frayed :
    ∃ text, (Account.ofFile frayed (inRoot "main.tom")).source = .ok text ∧
      ∀ line ∈ lines text, isStatement line = false ∧ ∀ name, ¬ Writes name line := by
  have read : frayed.read (inRoot "main.tom") =
      .ok "@import\n \"part\" \t\n\"gone\"\n@import 'gone'" := by
    decide +kernel
  have lineless : Lineless (inRoot "main.tom") := by
    unfold Lineless
    decide +kernel
  refine resolved_statementFree read lineless fun file _ => ?_
  cases found : frayed.read file with
  | error fault => simp [hasUnusable, found]
  | ok source =>
    have listed : ∀ file ∈ frayed.locations, hasUnusable frayed file = false := by decide +kernel
    exact listed file (FileSystem.mem_locations_of_read found)

end Stylesheet.Import
