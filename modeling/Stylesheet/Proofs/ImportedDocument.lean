import Stylesheet.Proofs.DocumentMerge
import Stylesheet.Proofs.LineSeams
import Stylesheet.Proofs.RevivedImports

/-!
# The document of a file with imports

A file with its imports in place is read as one source. If every text between two import statements
opens a construct before it says something, the document of that source is found without putting the
source together: each of these texts is read by itself, and the documents are merged one after another.
The comments that stand where the imports were say which files these are; they have no effect.

* `pieces`: the texts between the import statements, in the order in which they are put in place;
* `run_segments`: a source is read segment by segment;
* `run_includeFile`: reading a file in place is reading its pieces, from any state of the reader;
* `parse_imported`: so it is for a root file.
-/

namespace Stylesheet.Import

open Text Source

/-- The pieces of a segment of the file `importer`, where `imported` gives those of an import. -/
def Segment.pieces (importer : Location) (imported : Location → List Text) : Segment → List Text
  | .text content => [content]
  | .statement name => imported (target importer name)

/-- The texts in front of, between and behind the import statements of a file, with those of an import
in place of its statement. A file that is open already has none, nor has one that cannot be read. -/
def pieces (fs : FileSystem) (active : List Location) (file : Location) : List Text :=
  if file ∈ active then []
  else
    match _ : fs.read file with
    | .error _ => []
    | .ok source => (segments source).flatMap (Segment.pieces file (pieces fs (file :: active)))
termination_by remaining fs.locations active
decreasing_by
  exact remaining_cons_lt (FileSystem.mem_locations_of_read ‹_›) ‹_›

/-- The document with a piece of text read over it. -/
def addPiece (d : Document) (piece : Text) : Document :=
  d.merge (parse piece)

variable {fs : FileSystem} {root file : Location} {source : Text}

theorem pieces_of_mem {active : List Location} (open_ : file ∈ active) :
    pieces fs active file = [] := by
  rw [pieces, if_pos open_]

theorem pieces_of_error {active : List Location} {fault : ReadFault}
    (read : fs.read file = .error fault) : pieces fs active file = [] := by
  rw [pieces]
  split
  · rfl
  · split
    · rfl
    · simp_all

theorem pieces_of_ok {active : List Location} (closed : file ∉ active)
    (read : fs.read file = .ok source) :
    pieces fs active file =
      (segments source).flatMap (Segment.pieces file (pieces fs (file :: active))) := by
  rw [pieces, if_neg closed]
  split
  · simp_all
  · rename_i other read'
    obtain rfl : source = other := Except.ok.inj (read.symm.trans read')
    rfl

/-- What is asked of a root file and of the files that imports lead to from it: no line feed stands in
the name of the root file, the statements have names that a file can have, and each text around the
statements opens a construct before it says something about one. -/
structure Composable (fs : FileSystem) (root : Location) : Prop where
  lineless : Lineless root
  usable : ∀ file, Reaches fs root file → hasUnusable fs file = false
  led : ∀ file source, Reaches fs root file → fs.read file = .ok source →
    ∀ piece, .text piece ∈ segments source → HeaderLed piece

theorem Composable.at_target (h : Composable fs file) (read : fs.read file = .ok source) {name : Text}
    (listed : .statement name ∈ segments source) : Composable fs (target file name) := by
  have step : Imports fs file (target file name) := ⟨source, read, name, mem_names.2 listed, rfl⟩
  exact {
    lineless := lineless_target h.lineless listed
    usable := fun last chain => h.usable last (.head step chain)
    led := fun last text chain => h.led last text (.head step chain) }

/-- A source is read segment by segment, where each statement stands for a text of its own. -/
theorem run_segments (put : Segment → Text) (parts : Segment → List Text) {segs : List Segment}
    (chain : segs.IsChain Seam) (plain : ∀ content, put (.text content) = content)
    (each : ∀ segment ∈ segs, ∀ r : Reader,
      (r.run (lines (put segment))).document = (parts segment).foldl addPiece r.document)
    (r : Reader) :
    (r.run (lines (segs.flatMap put))).document = (segs.flatMap parts).foldl addPiece r.document := by
  induction segs generalizing r with
  | nil => rfl
  | cons first rest ih =>
    have later := ih chain.of_cons fun segment hs => each segment (List.mem_cons_of_mem first hs)
    rw [List.flatMap_cons, List.flatMap_cons, run_append_border (border_segments plain chain), later,
      List.foldl_append, each first List.mem_cons_self]

/-- The segments of a readable file, given that its imports are read as their pieces say. -/
theorem run_fragments (h : Composable fs file) (read : fs.read file = .ok source)
    {imported : Location → List Fragment} {parts : Location → List Text}
    (each : ∀ next, Composable fs next → ∀ r : Reader,
      (r.run (lines ((imported next).flatMap Fragment.render))).document =
        (parts next).foldl addPiece r.document) (r : Reader) :
    (r.run (lines (((segments source).flatMap (Segment.fragments file imported)).flatMap
      Fragment.render))).document =
        ((segments source).flatMap (Segment.pieces file parts)).foldl addPiece r.document := by
  rw [List.flatMap_assoc]
  apply run_segments (fun segment => (segment.fragments file imported).flatMap Fragment.render)
    (Segment.pieces file parts) (isChain_segments source)
  · intro content
    exact List.append_nil content
  · intro segment hs r
    cases segment with
    | text content =>
      have whole : [Fragment.text content].flatMap Fragment.render = content := List.append_nil content
      rw [Segment.fragments, whole]
      exact run_headerLed (h.led file source .refl read content hs) r
    | statement name =>
      have usable := h.usable file .refl
      simp only [hasUnusable, read, List.any_eq_false] at usable
      rw [Segment.fragments, if_neg (usable name (mem_names.2 hs))]
      exact each _ (h.at_target read hs) r

theorem run_imported_from {name : Text} (h : '\n' ∉ name) (r : Reader) :
    (r.run (lines ("# Imported from " ++ name ++ "\n"))).document = r.document := by
  have inner : '\n' ∉ ("Imported from " : Text) ++ name := by
    rw [List.mem_append, not_or]
    exact ⟨by decide, h⟩
  exact run_marker_line inner r

theorem run_failed_to_import {path : Text} (h : '\n' ∉ path) (r : Reader) :
    (r.run (lines ("# Failed to import: " ++ path))).document = r.document := by
  have inner : '\n' ∉ ("Failed to import: " : Text) ++ path := by
    rw [List.mem_append, not_or]
    exact ⟨by decide, h⟩
  exact run_marker inner r

theorem run_includeFile (active : List Location) (importer file : Location) (h : Composable fs file)
    (r : Reader) :
    (r.run (lines ((includeFile fs active importer file).flatMap Fragment.render))).document =
      (pieces fs active file).foldl addPiece r.document := by
  fun_induction includeFile fs active importer file generalizing r with
  | case1 active importer file open_ =>
    have whole : [Fragment.circular file].flatMap Fragment.render =
        "# Imported from " ++ file.name ++ "\n" := List.append_nil _
    rw [pieces_of_mem open_, whole, run_imported_from h.lineless.name]
    rfl
  | case2 active importer file closed fault read =>
    have whole : [Fragment.failed file fault].flatMap Fragment.render =
        "# Failed to import: " ++ file.render := List.append_nil _
    rw [pieces_of_error read, whole, run_failed_to_import h.lineless.render]
    rfl
  | case3 active importer file closed source read ih =>
    rw [pieces_of_ok closed read, render_opened, run_append_border (border_line _ _),
      run_fragments h read ih, run_imported_from h.lineless.name]

/-- A root file comes to a text, and the document of that text is the merge of the documents of its
pieces: of two that say something about one name, the later one counts, and the name keeps the place
that the earlier one gave it. Imports that are open already or cannot be read add nothing, and neither
do the names of the files. -/
theorem parse_imported (read : fs.read root = .ok source) (h : Composable fs root) :
    ∃ text, (Account.ofFile fs root).source = .ok text ∧
      parse text = (pieces fs [] root).foldl (fun d piece => d.merge (parse piece)) {} := by
  obtain ⟨text, resolved⟩ := source_of_usable h.usable read
  refine ⟨text, resolved, ?_⟩
  rw [source_eq_render read resolved, pieces_of_ok (by simp) read]
  exact run_fragments h read (fun next hn r => run_includeFile [root] root next hn r) {}

/-- A file that imports another one and one that is not there, with words in their names that
announce constructs. The other file imports the first one again. -/
def announcing : FileSystem where
  entries :=
    [(inRoot "main.tom",
        .file (Utf8.encode "@import \"component\"\n@import \"style\"\np:\n  bold\n") 0),
     (inRoot "component.tom",
        .file (Utf8.encode "colors:\n  ink black\n@import 'main'\n") 1)]
  clock := 2

theorem read_announcing_main : announcing.read (inRoot "main.tom") =
    .ok "@import \"component\"\n@import \"style\"\np:\n  bold\n" := by
  decide

theorem read_announcing_component : announcing.read (inRoot "component.tom") =
    .ok "colors:\n  ink black\n@import 'main'\n" := by
  decide

theorem segments_main : segments "@import \"component\"\n@import \"style\"\np:\n  bold\n" =
    [.statement "component", .text "\n", .statement "style", .text "\np:\n  bold\n"] := by
  decide +kernel

theorem segments_component : segments "colors:\n  ink black\n@import 'main'\n" =
    [.text "colors:\n  ink black\n", .statement "main", .text "\n"] := by
  decide +kernel

theorem composable_announcing : Composable announcing (inRoot "main.tom") where
  lineless := by
    unfold Lineless
    decide
  usable := by
    intro file _
    cases read : announcing.read file with
    | error fault => simp [hasUnusable, read]
    | ok source =>
      have listed : ∀ file ∈ announcing.locations, hasUnusable announcing file = false := by
        decide +kernel
      exact listed file (FileSystem.mem_locations_of_read read)
  led := by
    intro file source _ read piece hp
    have place : file = inRoot "main.tom" ∨ file = inRoot "component.tom" := by
      simpa [FileSystem.locations, announcing] using FileSystem.mem_locations_of_read read
    rcases place with rfl | rfl
    · obtain rfl := Except.ok.inj (read_announcing_main.symm.trans read)
      simp only [segments_main, List.mem_cons, List.not_mem_nil, Segment.text.injEq, reduceCtorEq,
        false_or, or_false] at hp
      rcases hp with rfl | rfl <;> decide
    · obtain rfl := Except.ok.inj (read_announcing_component.symm.trans read)
      simp only [segments_component, List.mem_cons, List.not_mem_nil, Segment.text.injEq, reduceCtorEq,
        false_or, or_false] at hp
      rcases hp with rfl | rfl <;> decide

theorem pieces_announcing : pieces announcing [] (inRoot "main.tom") =
    ["colors:\n  ink black\n", "\n", "\n", "\np:\n  bold\n"] := by
  have component : target (inRoot "main.tom") "component" = inRoot "component.tom" := by
    decide
  have back : target (inRoot "component.tom") "main" = inRoot "main.tom" := by decide
  have gone : announcing.read (target (inRoot "main.tom") "style") = .error (.file .notFound) := by
    decide
  have inner : pieces announcing [inRoot "main.tom"] (inRoot "component.tom") =
      ["colors:\n  ink black\n", "\n"] := by
    rw [pieces_of_ok (by decide) read_announcing_component, segments_component]
    simp only [List.flatMap_cons, List.flatMap_nil, Segment.pieces, back]
    rw [pieces_of_mem (by simp)]
    rfl
  rw [pieces_of_ok (by simp) read_announcing_main, segments_main]
  simp only [List.flatMap_cons, List.flatMap_nil, Segment.pieces, component, inner,
    pieces_of_error gone]
  rfl

theorem parse_announcing : ∃ text,
    (Account.ofFile announcing (inRoot "main.tom")).source = .ok text ∧
      (parse text).tokens.get? "colors" = some (.ofList [("ink", "black")]) ∧
      (parse text).components.entries = [] ∧
      (parse text).styles.get? "p" = some { props := ["bold"], nested := ∅ } := by
  obtain ⟨text, resolved, merged⟩ := parse_imported read_announcing_main composable_announcing
  rw [pieces_announcing] at merged
  refine ⟨text, resolved, ?_⟩
  rw [merged]
  decide

end Stylesheet.Import
