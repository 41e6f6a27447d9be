import Mathlib.Data.List.TakeWhile
import Stylesheet.Import.Inclusion
import Stylesheet.Proofs.RevivedImports
import Stylesheet.Proofs.Trim

/-!
# Cycles of imports

A file that is open already is left out where it is imported again, with a warning. There is a warning
exactly if imports lead from the root file to a cycle, and an error exactly if they lead to a file that
cannot be read. Without a cycle nothing is left out, and the text is what comes of replacing every
statement by the text of the file it asks for, with no thought of what is open.

* `AsksFor`, with `target_iff`: the file that the name in a statement leads to;
* `opens_terminating`: putting a file in place opens further files finitely often;
* `circular_mem_includeFile`, `acyclic_of_includeFile`: what is left out shows a cycle, and is there
  if there is one;
* `Inlined`: the text of a file with every import in place, whether it is open or not;
* `inlined_placed`: without a cycle, it is what the guarded inclusion comes to;
* `resolve_exact`: what a resolver reports and returns.
-/

namespace Stylesheet.Import

open Text Relation

variable {fs : FileSystem} {root file next last : Location} {source : Text}

/-! ## What a statement asks for -/

/-- The names on the way from a directory to a location. An empty name and a dot do not move, and two
dots lead back by one name. -/
inductive Walk : Location → List Text → Location → Prop
  | done {l : Location} : Walk l [] l
  | stay {l last : Location} {name : Text} {rest : List Text} (still : name = "" ∨ name = ".")
      (on : Walk l rest last) : Walk l (name :: rest) last
  | up {l last : Location} {rest : List Text} (on : Walk l.dropLast rest last) :
      Walk l (".." :: rest) last
  | down {l last : Location} {name : Text} {rest : List Text}
      (plain : name ≠ "" ∧ name ≠ "." ∧ name ≠ "..") (on : Walk (l ++ [name]) rest last) :
      Walk l (name :: rest) last

/-- The name in a statement of the file `importer` asks for a file. The name is cut at its slashes, with
the ending `.tom` if it lacks it, and leads there from the directory of the importer, or from the root
if it begins with a slash. -/
def AsksFor (importer : Location) (name : Text) (file : Location) : Prop :=
  ∃ path pieces start,
    (".tom" <:+ name ∧ path = name ∨ ¬ ".tom" <:+ name ∧ path = name ++ ".tom") ∧
    (join "/" pieces = path ∧ ∀ piece ∈ pieces, '/' ∉ piece) ∧
    (path.head? = some '/' ∧ start = [] ∨ path.head? ≠ some '/' ∧ start = importer.dropLast) ∧
    Walk start pieces file

theorem walk_iff {l last : Location} {names : List Text} :
    Walk l names last ↔
      (names.filter fun name => !(name.isEmpty || name == ['.'])).foldl Location.enter l = last := by
  constructor
  · intro walk
    induction walk with
    | done => rfl
    | stay still _ ih =>
      rcases still with rfl | rfl
      · exact ih
      · exact ih
    | up _ ih => exact ih
    | @down l last name rest plain _ ih =>
      have kept : (!(name.isEmpty || name == ['.'])) = true := by
        simpa using ⟨plain.1, plain.2.1⟩
      rw [List.filter_cons, if_pos kept, List.foldl_cons, Location.enter, if_neg plain.2.2]
      exact ih
  · rintro rfl
    induction names generalizing l with
    | nil => exact .done
    | cons name rest ih =>
      cases kept : !(name.isEmpty || name == ['.']) with
      | false =>
        have still : name = [] ∨ name = ['.'] := by simpa [or_iff_not_imp_left] using kept
        rw [List.filter_cons, if_neg (by simp [kept])]
        exact .stay still ih
      | true =>
        rw [List.filter_cons, if_pos kept, List.foldl_cons, Location.enter]
        by_cases up : name = ".."
        · rw [if_pos up, up]
          exact .up ih
        · rw [if_neg up]
          refine .down ⟨?_, ?_, up⟩ ih
          · rintro rfl
            cases kept
          · rintro rfl
            cases kept

theorem anchor_eq_here_iff {path : Text} :
    (Path.ofText path).anchor = .here ↔ path.head? ≠ some '/' := by
  cases path with
  | nil => simp [Path.ofText]
  | cons c path =>
    by_cases slash : c = '/'
    · simp only [Path.ofText, slash, List.takeWhile_cons, beq_self_eq_true, if_true, List.length_cons,
        List.head?_cons, ne_eq, not_true_eq_false, iff_false]
      split <;> simp_all
    · simp [Path.ofText, slash]

theorem locate_iff {path : Text} {directory file : Location} :
    (Path.ofText path).locate directory = file ↔
      ∃ start, (path.head? = some '/' ∧ start = [] ∨ path.head? ≠ some '/' ∧ start = directory) ∧
        Walk start (split '/' path) file := by
  unfold Path.locate
  split
  · rename_i here
    simp [anchor_eq_here_iff.1 here, walk_iff, Path.ofText]
  · rename_i away
    have slash : path.head? = some '/' := by
      by_contra other
      exact away (anchor_eq_here_iff.2 other)
    simp [slash, walk_iff, Path.ofText]

theorem target_iff {importer file : Location} {name : Text} :
    target importer name = file ↔ AsksFor importer name file := by
  rw [target, pathOf, locate_iff]
  constructor
  · rintro ⟨start, begun, walk⟩
    refine ⟨_, _, start, ?_, ⟨join_split '/' _, fun _ => not_mem_of_mem_split⟩, begun, walk⟩
    by_cases ending : ".tom" <:+ name
    · exact .inl ⟨ending, if_pos (List.isSuffixOf_iff_suffix.2 ending)⟩
    · exact .inr ⟨ending, if_neg (mt List.isSuffixOf_iff_suffix.1 ending)⟩
  · rintro ⟨path, pieces, start, ending, ⟨cut, plain⟩, begun, walk⟩
    have whole : (if ends sourceEnding name then name else name ++ sourceEnding) = path := by
      rcases ending with ⟨ending, rfl⟩ | ⟨ending, rfl⟩
      · exact if_pos (List.isSuffixOf_iff_suffix.2 ending)
      · exact if_neg (mt List.isSuffixOf_iff_suffix.1 ending)
    have some : pieces ≠ [] := by
      rintro rfl
      rcases ending with ⟨ending, rfl⟩ | ⟨-, rfl⟩
      · rw [← cut] at ending
        exact absurd ending (by decide)
      · cases name <;> cases cut
    rw [whole]
    refine ⟨start, begun, ?_⟩
    rw [← cut]
    exact (split_join some plain).symm ▸ walk

/-! ## An end of the inclusion -/

/-- To put a file in place, while the files in `active` are open, a file that it asks for is put in
place, and it is open then too. -/
inductive Opens (fs : FileSystem) : List Location × Location → List Location × Location → Prop
  | asked {active : List Location} {file next : Location} {source : Text} (closed : file ∉ active)
      (read : fs.read file = .ok source) (asked : next ∈ targets file source) :
      Opens fs (active, file) (file :: active, next)

theorem opens_terminating (fs : FileSystem) :
    WellFounded fun inner outer => Opens fs outer inner := by
  apply Subrelation.wf (r := fun inner outer : List Location × Location =>
    remaining fs.locations inner.1 < remaining fs.locations outer.1)
  · intro inner outer h
    obtain ⟨closed, read, -⟩ := h
    exact remaining_cons_lt (FileSystem.mem_locations_of_read read) closed
  · exact (measure fun call : List Location × Location => remaining fs.locations call.1).wf

/-! ## Files that are left out -/

/-- A file that is left out was open from the start, or imports lead back to it. -/
theorem circular_mem_includeFile {again : Location} {active : List Location}
    {importer file : Location}
    (h : .circular again ∈ includeFile fs active importer file) :
    Reaches fs file again ∧ (again ∈ active ∨ TransGen (Imports fs) again again) := by
  fun_induction includeFile fs active importer file with
  | case1 active importer file open_ =>
    obtain rfl : again = file := by simpa using h
    exact ⟨.refl, .inl open_⟩
  | case2 active importer file closed fault read => simp at h
  | case3 active importer file closed source read ih =>
    have inside : .circular again ∈ (segments source).flatMap
        (Segment.fragments file (includeFile fs (file :: active) file)) := by
      simpa using h
    rcases (mem_fragments (by simp)).1 inside with ⟨unlike, -⟩ | ⟨next, asked, found⟩
    · cases unlike
    · have step := imports_of_mem_targets read asked
      obtain ⟨chain, open_ | cycle⟩ := ih next found
      · refine ⟨.head step chain, ?_⟩
        rcases List.mem_cons.1 open_ with rfl | open_
        · exact .inr (.head' step chain)
        · exact .inl open_
      · exact ⟨.head step chain, .inr cycle⟩

theorem reaches_of_unreadable (unread : ¬ Readable fs file) (chain : Reaches fs file last) :
    last = file := by
  rcases ReflTransGen.cases_head chain with same | ⟨next, ⟨source, read, -⟩, -⟩
  · exact same.symm
  · exact absurd ⟨source, read⟩ unread

section Usable

variable (usable : ∀ file, hasUnusable fs file = false)
include usable

/-- If nothing is left out of a file, nothing is left out of the files it asks for. -/
theorem circular_free_inside {imported : Location → List Fragment} {importer : Location}
    (read : fs.read file = .ok source)
    (none : ∀ again, .circular again ∉ .opened file ::
      (segments source).flatMap (Segment.fragments file imported) ++ [.closed file importer])
    (step : Imports fs file next) (again : Location) : .circular again ∉ imported next := by
  obtain ⟨source', read', asked⟩ := step
  obtain rfl : source = source' := Except.ok.inj (read.symm.trans read')
  have target := (mem_targets_of_usable usable read).2 asked
  intro found
  apply none again
  simp only [List.cons_append, List.mem_cons, List.mem_append]
  exact .inr (.inl ((mem_fragments (by simp)).2 (.inr ⟨next, target, found⟩)))

/-- If nothing is left out, imports lead neither to a file that was open from the start nor into a
cycle. -/
theorem acyclic_of_includeFile {active : List Location} {importer file : Location}
    (none : ∀ again, .circular again ∉ includeFile fs active importer file) :
    ∀ last, Reaches fs file last → last ∉ active ∧ ¬ TransGen (Imports fs) last last := by
  fun_induction includeFile fs active importer file with
  | case1 active importer file open_ => exact absurd List.mem_cons_self (none file)
  | case2 active importer file closed fault read =>
    have unread := not_readable_of_error read
    intro last chain
    obtain rfl := reaches_of_unreadable unread chain
    refine ⟨closed, fun cycle => ?_⟩
    obtain ⟨next, ⟨source, read', -⟩, -⟩ := TransGen.head'_iff.1 cycle
    exact unread ⟨source, read'⟩
  | case3 active importer file closed source read ih =>
    -- An import does not lead back to the file, which is open around it.
    have later : ∀ next, Imports fs file next → ∀ last, Reaches fs next last →
        last ∉ file :: active ∧ ¬ TransGen (Imports fs) last last := by
      intro next step
      exact ih next (circular_free_inside usable read none step)
    intro last chain
    rcases ReflTransGen.cases_head chain with rfl | ⟨next, step, rest⟩
    · refine ⟨closed, fun cycle => ?_⟩
      obtain ⟨next, step, rest⟩ := TransGen.head'_iff.1 cycle
      exact (later next step file rest).1 List.mem_cons_self
    · obtain ⟨away, acyclic⟩ := later next step last rest
      exact ⟨fun open_ => away (List.mem_cons_of_mem file open_), acyclic⟩

theorem circular_free_iff (importer : Location) :
    (∀ again, .circular again ∉ includeFile fs [] importer root) ↔
      ¬ ∃ file, Reaches fs root file ∧ TransGen (Imports fs) file file := by
  constructor
  · rintro none ⟨file, chain, cycle⟩
    exact (acyclic_of_includeFile usable none file chain).2 cycle
  · intro acyclic again found
    obtain ⟨chain, open_ | cycle⟩ := circular_mem_includeFile found
    · cases open_
    · exact acyclic ⟨again, chain, cycle⟩

theorem failed_free_iff (importer : Location) (read : fs.read root = .ok source) :
    (∀ file fault, .failed file fault ∉ includeFile fs [] importer root) ↔
      ∀ importer file, Reaches fs root importer → Imports fs importer file → Readable fs file := by
  constructor
  · rintro none importer file chain ⟨text, held, asked⟩
    have target := (mem_targets_of_usable usable held).2 asked
    have led := (leads_iff_reachable usable).2 ⟨⟨text, held⟩, chain⟩
    cases own : fs.read file with
    | ok other => exact ⟨other, own⟩
    | error fault =>
      exact absurd ((failed_mem_includeFile _ _ _).2
        ⟨own, by simp, .inr ⟨importer, text, led, held, target⟩⟩) (none file fault)
  · intro all file fault failed
    obtain ⟨unread, -, rfl | ⟨importer, text, led, held, target⟩⟩ :=
      (failed_mem_includeFile _ _ _).1 failed
    · cases read.symm.trans unread
    · exact not_readable_of_error unread
        (all importer file led.reaches (imports_of_mem_targets held target))

end Usable

/-! ## Inclusion without a guard -/

/-- What stands in place of a segment of the file `importer`: its text, or a marker that names the file
it asks for and, if that can be read, the text of the file, which `inner` gives. -/
def Segment.inlined (fs : FileSystem) (importer : Location) (inner : Location → Text) :
    Segment → Text
  | .text content => content
  | .statement name =>
    match fs.read (target importer name) with
    | .ok _ =>
      "# Imported from " ++ (target importer name).name ++ "\n" ++ inner (target importer name)
    | .error _ => "# Failed to import: " ++ (target importer name).render

/-- A readable file comes to a text if every statement in it is replaced by the text that the file it
asks for comes to, each time anew. In a cycle there is no such text. -/
inductive Inlined (fs : FileSystem) : Location → Text → Prop
  | file {file : Location} {source : Text} {inner : Location → Text}
      (read : fs.read file = .ok source)
      (each : ∀ next, Imports fs file next → Readable fs next → Inlined fs next (inner next)) :
      Inlined fs file ((segments source).flatMap (Segment.inlined fs file inner))

theorem flatMap_segments_congr {f g : Segment → Text}
    (same : ∀ segment ∈ segments source, f segment = g segment) :
    (segments source).flatMap f = (segments source).flatMap g := by
  rw [List.flatMap_def, List.flatMap_def, List.map_congr_left same]

theorem inlined_congr {inner inner' : Location → Text} (read : fs.read file = .ok source)
    (same : ∀ next, Imports fs file next → Readable fs next → inner next = inner' next) :
    (segments source).flatMap (Segment.inlined fs file inner) =
      (segments source).flatMap (Segment.inlined fs file inner') := by
  apply flatMap_segments_congr
  intro segment hs
  cases segment with
  | text content => rfl
  | statement name =>
    have step : Imports fs file (target file name) := ⟨source, read, name, mem_names.2 hs, rfl⟩
    rw [Segment.inlined, Segment.inlined]
    cases own : fs.read (target file name) with
    | error fault => rfl
    | ok text => rw [same _ step ⟨text, own⟩]

theorem Inlined.unique {t u : Text} (h : Inlined fs file t) (h' : Inlined fs file u) : t = u := by
  induction h generalizing u with
  | @file file source inner read each ih =>
    cases h' with
    | @file _ source' inner' read' each' =>
      obtain rfl : source = source' := Except.ok.inj (read.symm.trans read')
      apply inlined_congr read
      intro next step readable
      exact ih next step readable (each' next step readable)

/-- The text of a file with its imports in place, while the files in `active` and the file itself are
open. -/
def placed (fs : FileSystem) (active : List Location) (file : Location) : Text :=
  match fs.read file with
  | .error _ => []
  | .ok source =>
    ((segments source).flatMap
      (Segment.fragments file (includeFile fs (file :: active) file))).flatMap Fragment.render

theorem placed_of_ok {active : List Location} (read : fs.read file = .ok source) :
    placed fs active file = ((segments source).flatMap
      (Segment.fragments file (includeFile fs (file :: active) file))).flatMap Fragment.render := by
  simp only [placed, read]

section Usable

variable (usable : ∀ file, hasUnusable fs file = false)
include usable

/-- Where no statement asks for an open file, what the statements are replaced by is what the files
come to. -/
theorem render_fragments {active : List Location} (read : fs.read file = .ok source)
    (away : ∀ next, Imports fs file next → next ∉ active) :
    ((segments source).flatMap (Segment.fragments file (includeFile fs active file))).flatMap
        Fragment.render =
      (segments source).flatMap (Segment.inlined fs file (placed fs active)) := by
  rw [List.flatMap_assoc]
  apply flatMap_segments_congr
  intro segment hs
  cases segment with
  | text content => exact List.append_nil content
  | statement name =>
    have closed := away (target file name) ⟨source, read, name, mem_names.2 hs, rfl⟩
    have all := List.any_eq_false.1 (names_usable usable read)
    have plain := all name (mem_names.2 hs)
    rw [Segment.fragments, if_neg plain, Segment.inlined]
    cases own : fs.read (target file name) with
    | error fault =>
      rw [includeFile_of_error closed own]
      exact List.append_nil _
    | ok text =>
      rw [includeFile_of_ok closed own, render_opened, placed_of_ok own]

theorem inlined_placed {active : List Location} {importer file : Location}
    (none : ∀ again, .circular again ∉ includeFile fs active importer file)
    (readable : Readable fs file) : Inlined fs file (placed fs active file) := by
  fun_induction includeFile fs active importer file with
  | case1 active importer file open_ => exact absurd List.mem_cons_self (none file)
  | case2 active importer file closed fault read =>
    exact absurd readable (not_readable_of_error read)
  | case3 active importer file closed source read ih =>
    have inside : ∀ next, Imports fs file next → ∀ again,
        .circular again ∉ includeFile fs (file :: active) file next :=
      fun next step => circular_free_inside usable read none step
    have away : ∀ next, Imports fs file next → next ∉ file :: active := by
      intro next step
      exact (acyclic_of_includeFile usable (inside next step) next .refl).1
    rw [placed_of_ok read, render_fragments usable read away]
    exact .file read fun next step => ih next (inside next step)

end Usable

/-! ## What a resolver reports -/

namespace Account

theorem problems_ofFragments {fragments : List Fragment} (usable : .unusable ∉ fragments) :
    (ofFragments fragments).problems = fragments.filterMap Fragment.problem? := by
  have whole : fragments.takeWhile (· != .unusable) = fragments := by
    rw [List.takeWhile_eq_self_iff]
    intro fragment hf
    rw [bne_iff_ne]
    rintro rfl
    exact usable hf
  simp only [ofFragments, whole]

theorem warnings_eq_nil_iff {fragments : List Fragment} (usable : .unusable ∉ fragments) :
    (ofFragments fragments).warnings = [] ↔ ∀ file, .circular file ∉ fragments := by
  rw [warnings, problems_ofFragments usable, List.filterMap_filterMap, List.filterMap_eq_nil_iff]
  constructor
  · intro none file found
    cases none _ found
  · intro none fragment found
    cases fragment with
    | circular file => exact absurd found (none file)
    | _ => rfl

theorem errors_eq_nil_iff {fragments : List Fragment} (usable : .unusable ∉ fragments) :
    (ofFragments fragments).errors = [] ↔ ∀ file fault, .failed file fault ∉ fragments := by
  rw [errors, problems_ofFragments usable, List.filterMap_filterMap, List.filterMap_eq_nil_iff]
  constructor
  · intro none file fault found
    cases none _ found
  · intro none fragment found
    cases fragment with
    | failed file fault => exact absurd found (none file fault)
    | _ => rfl

end Account

/-- The fragments of a root file are what stands between its first and last fragment where it is
included like any other file. -/
theorem mem_root_fragments {fragment : Fragment} (read : fs.read root = .ok source)
    (inner : fragment ≠ .opened root ∧ fragment ≠ .closed root root) :
    fragment ∈ (segments source).flatMap (Segment.fragments root (includeFile fs [root] root)) ↔
      fragment ∈ includeFile fs [] root root := by
  rw [includeFile_of_ok (by simp) read]
  simp [inner.1, inner.2]

/-- A resolver is asked for the text of a root file that can be read, whatever messages it holds from
earlier times. The inclusion comes to an end and to a text. There is no warning exactly if imports lead
to no file that leads back to itself, and no error exactly if every file that is asked for on the way
can be read. If there is no cycle, the text is what the root file comes to if every statement is
replaced by the text of the file it asks for, and nothing else; and what it asks for is the file that
its name leads to. -/
theorem Resolver.resolve_exact (r : Resolver) (fs : FileSystem) (source : Text)
    (usable : ∀ file, hasUnusable fs file = false) (read : fs.read r.root = .ok source) :
    Acc (fun inner outer => Opens fs outer inner) ([], r.root) ∧
      ∃ text, (r.resolve fs).2 = .ok text ∧
        ((r.resolve fs).1.warnings = [] ↔
          ¬ ∃ file, Reaches fs r.root file ∧ TransGen (Imports fs) file file) ∧
        ((r.resolve fs).1.errors = [] ↔
          ∀ importer file, Reaches fs r.root importer → Imports fs importer file →
            Readable fs file) ∧
        ((¬ ∃ file, Reaches fs r.root file ∧ TransGen (Imports fs) file file) →
          ∀ t, Inlined fs r.root t ↔ t = text) ∧
        ∀ importer name file, target importer name = file ↔ AsksFor importer name file := by
  obtain ⟨text, resolved⟩ := source_ofFile usable read
  have account := includeRoot_ok read
  have plain : .unusable ∉ (segments source).flatMap
      (Segment.fragments r.root (includeFile fs [r.root] r.root)) := by
    rw [mem_root_fragments read (by simp)]
    exact unusable_not_mem_includeFile usable _ _ _
  refine ⟨(opens_terminating fs).apply _, text, resolved, ?_, ?_, ?_, fun _ _ _ => target_iff⟩
  · rw [← circular_free_iff usable r.root]
    simp only [resolve, record, clear, List.nil_append, Account.ofFile, account,
      Account.warnings_eq_nil_iff plain]
    exact forall_congr' fun file => not_congr (mem_root_fragments read (by simp))
  · rw [← failed_free_iff usable r.root read]
    simp only [resolve, record, clear, List.nil_append, Account.ofFile, account,
      Account.errors_eq_nil_iff plain]
    exact forall_congr' fun file => forall_congr' fun fault =>
      not_congr (mem_root_fragments read (by simp))
  · intro acyclic
    have none := (circular_free_iff usable r.root).2 acyclic
    have own := inlined_placed usable none ⟨source, read⟩
    rw [placed_of_ok read, ← source_eq_render read resolved] at own
    intro t
    exact ⟨fun h => h.unique own, fun same => same ▸ own⟩

/-- A root file with two imports that both import a third file, one of them also a file that is not
there. -/
def diamond : FileSystem where
  entries :=
    [(inRoot "main.tom", .file (Utf8.encode "@import \"left\"\n@import \"right\"\n") 0),
     (inRoot "left.tom", .file (Utf8.encode "@import \"base\"\n") 1),
     (inRoot "right.tom", .file (Utf8.encode "@import \"base\"\n@import \"gone\"") 2),
     (inRoot "base.tom", .file (Utf8.encode "p:\n  bold\n") 3)]
  clock := 4

/-- The files of `diamond` in an order in which every file stands before its imports. -/
def diamondOrder : List Location :=
  [inRoot "main.tom", inRoot "left.tom", inRoot "right.tom", inRoot "base.tom", inRoot "gone.tom"]

theorem imports_diamond (step : Imports diamond file next) :
    diamondOrder.idxOf file < diamondOrder.idxOf next := by
  have ordered : ∀ file ∈ diamond.locations, ∀ source ∈ (diamond.read file).toOption,
      ∀ name ∈ names source,
        diamondOrder.idxOf file < diamondOrder.idxOf (target file name) := by
    decide +kernel
  obtain ⟨source, read, name, hn, rfl⟩ := step
  apply ordered file (FileSystem.mem_locations_of_read read) source _ name hn
  rw [read]
  rfl

theorem acyclic_diamond (file : Location) : ¬ TransGen (Imports diamond) file file := by
  have climbs {a b : Location} (chain : TransGen (Imports diamond) a b) :
      diamondOrder.idxOf a < diamondOrder.idxOf b := by
    induction chain with
    | single step => exact imports_diamond step
    | tail _ step ih => exact lt_trans ih (imports_diamond step)
  intro cycle
  exact lt_irrefl _ (climbs cycle)

theorem usable_diamond (file : Location) : hasUnusable diamond file = false := by
  have listed : ∀ file ∈ diamond.locations, hasUnusable diamond file = false := by decide +kernel
  cases read : diamond.read file with
  | error fault => simp [hasUnusable, read]
  | ok source => exact listed file (FileSystem.mem_locations_of_read read)

/-- The text of `diamond`: the third file is there twice. -/
def diamondText : Text :=
  "# Imported from left.tom\n" ++ "# Imported from base.tom\n" ++ "p:\n  bold\n" ++ "\n\n" ++
    "# Imported from right.tom\n" ++ "# Imported from base.tom\n" ++ "p:\n  bold\n" ++ "\n" ++
    "# Failed to import: /gone.tom" ++ "\n"

theorem read_diamond :
    diamond.read (inRoot "main.tom") = .ok "@import \"left\"\n@import \"right\"\n" ∧
      diamond.read (inRoot "left.tom") = .ok "@import \"base\"\n" ∧
      diamond.read (inRoot "right.tom") = .ok "@import \"base\"\n@import \"gone\"" ∧
      diamond.read (inRoot "base.tom") = .ok "p:\n  bold\n" ∧
      diamond.read (inRoot "gone.tom") = .error (.file .notFound) := by
  decide +kernel

theorem segments_diamond :
    segments "@import \"left\"\n@import \"right\"\n" =
        [.statement "left", .text "\n", .statement "right", .text "\n"] ∧
      segments "@import \"base\"\n" = [.statement "base", .text "\n"] ∧
      segments "@import \"base\"\n@import \"gone\"" =
        [.statement "base", .text "\n", .statement "gone"] ∧
      segments "p:\n  bold\n" = [.text "p:\n  bold\n"] := by
  decide +kernel

theorem target_diamond :
    target (inRoot "main.tom") "left" = inRoot "left.tom" ∧
      target (inRoot "main.tom") "right" = inRoot "right.tom" ∧
      target (inRoot "left.tom") "base" = inRoot "base.tom" ∧
      target (inRoot "right.tom") "base" = inRoot "base.tom" ∧
      target (inRoot "right.tom") "gone" = inRoot "gone.tom" := by
  decide

theorem source_diamond :
    (Account.ofFile diamond (inRoot "main.tom")).source = .ok diamondText := by
  obtain ⟨main, left, right, base, gone⟩ := read_diamond
  have usable : isUnusable "left" = false ∧ isUnusable "right" = false ∧ isUnusable "base" = false ∧
      isUnusable "gone" = false := by
    decide
  have closed : inRoot "left.tom" ∉ [inRoot "main.tom"] ∧ inRoot "right.tom" ∉ [inRoot "main.tom"] ∧
      inRoot "base.tom" ∉ [inRoot "left.tom", inRoot "main.tom"] ∧
      inRoot "base.tom" ∉ [inRoot "right.tom", inRoot "main.tom"] ∧
      inRoot "gone.tom" ∉ [inRoot "right.tom", inRoot "main.tom"] := by
    decide
  rw [Account.ofFile, includeRoot_ok main]
  simp only [segments_diamond, List.flatMap_cons, List.flatMap_nil, Segment.fragments, usable,
    Bool.false_eq_true, if_false, target_diamond, includeFile_of_ok closed.1 left,
    includeFile_of_ok closed.2.1 right,
    includeFile_of_ok closed.2.2.1 base, includeFile_of_ok closed.2.2.2.1 base,
    includeFile_of_error closed.2.2.2.2 gone]
  decide +kernel

/-- A resolver with messages from earlier times: the warning is gone, and the error is the one about
the file that is not there. -/
theorem resolve_diamond :
    (Resolver.resolve ⟨inRoot "main.tom", ["stale"], ["stale"]⟩ diamond).2 = .ok diamondText ∧
      (Resolver.resolve ⟨inRoot "main.tom", ["stale"], ["stale"]⟩ diamond).1.warnings = [] ∧
      (Resolver.resolve ⟨inRoot "main.tom", ["stale"], ["stale"]⟩ diamond).1.errors ≠ [] ∧
      ∀ t, Inlined diamond (inRoot "main.tom") t ↔ t = diamondText := by
  obtain ⟨read, -, read_right, -, gone⟩ := read_diamond
  obtain ⟨-, right, -, -, missing⟩ := target_diamond
  have to_right : Imports diamond (inRoot "main.tom") (inRoot "right.tom") :=
    ⟨_, read, "right", by rw [names, segments_diamond.1]; decide, right⟩
  have to_gone : Imports diamond (inRoot "right.tom") (inRoot "gone.tom") :=
    ⟨_, read_right, "gone", by rw [names, segments_diamond.2.2.1]; decide, missing⟩
  have acyclic : ¬ ∃ file, Reaches diamond (inRoot "main.tom") file ∧
      TransGen (Imports diamond) file file := by
    rintro ⟨file, -, cycle⟩
    exact acyclic_diamond file cycle
  obtain ⟨-, text, resolved, warnings, errors, inlined, -⟩ :=
    Resolver.resolve_exact ⟨inRoot "main.tom", ["stale"], ["stale"]⟩ diamond _ usable_diamond read
  obtain rfl : diamondText = text := Except.ok.inj (source_diamond.symm.trans resolved)
  refine ⟨resolved, warnings.2 acyclic, ?_, inlined acyclic⟩
  intro none
  exact not_readable_of_error gone (errors.1 none _ _ (.single to_right) to_gone)

end Stylesheet.Import
