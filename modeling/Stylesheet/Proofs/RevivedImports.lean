import Stylesheet.Proofs.ImportLocality

/-!
# Imports that could not be read

The list of the files that a root file is made of leaves out imports that cannot be read, though the
text depends on them as well: a marker stands where they are asked for. If the listed files stay as
they are, the text changes exactly if such an import can be read after all.

* `failed_mem_includeFile`: an import fails if a file that is read asks for it and it cannot be read;
* `Tracks`: the text of another file system stays the same or departs at the marker of such an import;
* `includeFile_tracks`: so it is for every file, if the files that are read stay the same;
* `source_eq_iff_listed`: so it is for a root file and the files that are listed for it.
-/

namespace Stylesheet.Import

variable {fs fs' : FileSystem} {root file last next : Location} {source : Text}

/-! ## Which imports fail -/

theorem failed_mem_includeFile {missing : Location} {fault : ReadFault} (active : List Location)
    (importer file : Location) :
    .failed missing fault ∈ includeFile fs active importer file ↔
      fs.read missing = .error fault ∧ missing ∉ active ∧
        (missing = file ∨ ∃ last source, Leads fs active file last ∧ fs.read last = .ok source ∧
          missing ∈ targets last source) := by
  fun_induction includeFile fs active importer file with
  | case1 active importer file open_ =>
    have none (last : Location) : ¬ Leads fs active file last := fun h => h.first_clear open_
    simp only [List.mem_singleton, reduceCtorEq, false_iff]
    rintro ⟨-, clear, rfl | ⟨last, source, h, -⟩⟩
    · exact clear open_
    · exact none last h
  | case2 active importer file closed other read =>
    have none (last : Location) : ¬ Leads fs active file last :=
      fun h => not_readable_of_error read h.first_readable
    simp only [List.mem_singleton, Fragment.failed.injEq, none, false_and, exists_false, or_false]
    constructor
    · rintro ⟨rfl, rfl⟩
      exact ⟨read, closed, rfl⟩
    · rintro ⟨unread, -, rfl⟩
      exact ⟨rfl, Except.error.inj (unread.symm.trans read)⟩
  | case3 active importer file closed source read ih =>
    have inside : .failed missing fault ∈ .opened file ::
          (segments source).flatMap (Segment.fragments file (includeFile fs (file :: active) file)) ++
          [.closed file importer] ↔
        ∃ next ∈ targets file source, .failed missing fault ∈
          includeFile fs (file :: active) file next := by
      have other : ∀ content, (.failed missing fault : Fragment) ≠ .text content := by simp
      rw [List.mem_append, List.mem_cons, mem_fragments other]
      simp
    rw [inside]
    constructor
    · rintro ⟨next, asked, failed⟩
      obtain ⟨unread, clear, found⟩ := (ih next).1 failed
      refine ⟨unread, fun hm => clear (List.mem_cons_of_mem file hm), .inr ?_⟩
      rcases found with rfl | ⟨last, text, chain, readable, wanted⟩
      · exact ⟨file, source, .self closed read, read, asked⟩
      · exact ⟨last, text, .via closed read asked chain.unblock, readable, wanted⟩
    · rintro ⟨unread, clear, found⟩
      have other : missing ≠ file := by
        rintro rfl
        cases unread.symm.trans read
      have away : missing ∉ file :: active := by simp [other, clear]
      rcases found with same | ⟨last, text, chain, readable, wanted⟩
      · exact absurd same other
      · rcases (leads_iff closed read).1 chain with rfl | ⟨next, asked, rest⟩
        · obtain rfl : source = text := Except.ok.inj (read.symm.trans readable)
          exact ⟨missing, wanted, (ih missing).2 ⟨unread, away, .inl rfl⟩⟩
        · exact ⟨next, asked, (ih next).2 ⟨unread, away, .inr ⟨last, text, rest, readable, wanted⟩⟩⟩

/-! ## Texts that go different ways -/

/-- Two texts are the same up to some place and have different characters there. -/
def Departs (t u : Text) : Prop :=
  ∃ front c d back back', c ≠ d ∧ t = front ++ c :: back ∧ u = front ++ d :: back'

theorem Departs.ne {t u : Text} (h : Departs t u) : t ≠ u := by
  obtain ⟨front, c, d, back, back', other, rfl, rfl⟩ := h
  intro same
  exact other (List.cons.inj (List.append_cancel_left same)).1

theorem Departs.append_left {t u : Text} (h : Departs t u) (front : Text) :
    Departs (front ++ t) (front ++ u) := by
  obtain ⟨before, c, d, back, back', other, rfl, rfl⟩ := h
  exact ⟨front ++ before, c, d, back, back', other, by simp, by simp⟩

theorem Departs.append_right {t u : Text} (h : Departs t u) (back back' : Text) :
    Departs (t ++ back) (u ++ back') := by
  obtain ⟨front, c, d, rest, rest', other, rfl, rfl⟩ := h
  exact ⟨front, c, d, rest ++ back, rest' ++ back', other, by simp, by simp⟩

/-- Among the fragments is an import that failed, and the file can be read in `fs'`. -/
def Revived (fs' : FileSystem) (fragments : List Fragment) : Prop :=
  ∃ file fault, .failed file fault ∈ fragments ∧ Readable fs' file

theorem revived_append {a b : List Fragment} :
    Revived fs' (a ++ b) ↔ Revived fs' a ∨ Revived fs' b := by
  simp only [Revived, List.mem_append]
  constructor
  · rintro ⟨file, fault, ha | hb, readable⟩
    · exact .inl ⟨file, fault, ha, readable⟩
    · exact .inr ⟨file, fault, hb, readable⟩
  · rintro (⟨file, fault, ha, readable⟩ | ⟨file, fault, hb, readable⟩)
    · exact ⟨file, fault, .inl ha, readable⟩
    · exact ⟨file, fault, .inr hb, readable⟩

/-- A text is that of the fragments, unless an import that failed can be read in `fs'`: then it goes
another way. -/
structure Tracks (fs' : FileSystem) (fragments : List Fragment) (text : Text) : Prop where
  same : ¬ Revived fs' fragments → text = fragments.flatMap Fragment.render
  departs : Revived fs' fragments → Departs (fragments.flatMap Fragment.render) text

namespace Tracks

theorem of_no_failure {fragments : List Fragment}
    (none : ∀ file fault, .failed file fault ∉ fragments) :
    Tracks fs' fragments (fragments.flatMap Fragment.render) where
  same _ := rfl
  departs := fun ⟨file, fault, failed, _⟩ => absurd failed (none file fault)

theorem append {a b : List Fragment} {t u : Text} (ha : Tracks fs' a t) (hb : Tracks fs' b u) :
    Tracks fs' (a ++ b) (t ++ u) := by
  constructor
  · intro none
    rw [revived_append, not_or] at none
    rw [List.flatMap_append, ha.same none.1, hb.same none.2]
  · intro some
    rw [List.flatMap_append]
    by_cases first : Revived fs' a
    · exact (ha.departs first).append_right _ _
    · rw [ha.same first]
      have second := (revived_append.1 some).resolve_left first
      exact (hb.departs second).append_left _

theorem cons {first : Fragment} {rest : List Fragment} {t : Text}
    (plain : ∀ file fault, .failed file fault ≠ first) (h : Tracks fs' rest t) :
    Tracks fs' (first :: rest) (first.render ++ t) := by
  have own : Tracks fs' [first] ([first].flatMap Fragment.render) :=
    of_no_failure fun file fault failed => plain file fault (List.mem_singleton.1 failed)
  rw [List.flatMap_singleton] at own
  exact own.append h

theorem flatMap {α : Type} {xs : List α} {f : α → List Fragment} {g : α → Text}
    (h : ∀ x ∈ xs, Tracks fs' (f x) (g x)) : Tracks fs' (xs.flatMap f) (xs.flatMap g) := by
  induction xs with
  | nil => exact of_no_failure (by simp)
  | cons x xs ih =>
    rw [List.flatMap_cons, List.flatMap_cons]
    exact (h x List.mem_cons_self).append (ih fun y hy => h y (List.mem_cons_of_mem x hy))

end Tracks

/-! ## The same files in another file system -/

theorem fragments_tracks {imported imported' : Location → List Fragment}
    (h : ∀ next ∈ targets file source,
      Tracks fs' (imported next) ((imported' next).flatMap Fragment.render)) :
    Tracks fs' ((segments source).flatMap (Segment.fragments file imported))
      (((segments source).flatMap (Segment.fragments file imported')).flatMap Fragment.render) := by
  rw [List.flatMap_assoc]
  refine Tracks.flatMap fun segment hs => ?_
  cases segment with
  | text content => exact Tracks.of_no_failure (by simp [Segment.fragments])
  | statement name =>
    cases unusable : isUnusable name with
    | true =>
      simp only [Segment.fragments, unusable, if_true]
      exact Tracks.of_no_failure (by simp)
    | false =>
      simp only [Segment.fragments, unusable, Bool.false_eq_true, if_false]
      exact h _ (mem_targets.2 ⟨name, mem_names.2 hs, unusable, rfl⟩)

theorem includeFile_tracks (active : List Location) (importer file : Location)
    (same : ∀ last, Leads fs active file last → fs'.read last = fs.read last) :
    Tracks fs' (includeFile fs active importer file)
      ((includeFile fs' active importer file).flatMap Fragment.render) := by
  fun_induction includeFile fs active importer file with
  | case1 active importer file open_ =>
    rw [includeFile_of_mem open_]
    exact Tracks.of_no_failure (by simp)
  | case2 active importer file closed fault read =>
    cases read' : fs'.read file with
    | error fault' =>
      rw [includeFile_of_error closed read']
      refine ⟨fun _ => rfl, ?_⟩
      rintro ⟨missing, other, failed, readable⟩
      obtain ⟨rfl, rfl⟩ : missing = file ∧ other = fault := by simpa using failed
      exact absurd readable (not_readable_of_error read')
    | ok text =>
      rw [includeFile_of_ok closed read']
      constructor
      · intro none
        exact absurd ⟨file, fault, List.mem_cons_self, text, read'⟩ none
      · intro _
        exact ⟨"# ", 'F', 'I', _, _, by decide, rfl, rfl⟩
  | case3 active importer file closed source read ih =>
    have read' := (same file (.self closed read)).trans read
    have inside := fragments_tracks fun next asked => ih next fun last chain =>
      same last (.via closed read asked chain.unblock)
    rw [includeFile_of_ok closed read', List.cons_append, List.cons_append, List.flatMap_cons,
      List.flatMap_append]
    exact (inside.append (Tracks.of_no_failure (by simp))).cons (by simp)

/-! ## The listed files -/

theorem Leads.last_readable {blocked : List Location} (h : Leads fs blocked file last) :
    Readable fs last := by
  induction h with
  | self _ read => exact ⟨_, read⟩
  | via _ _ _ _ ih => exact ih

theorem Leads.snoc {blocked : List Location} (h : Leads fs blocked file last)
    (read : fs.read last = .ok source) (asked : next ∈ targets last source)
    (clear : next ∉ blocked) (readable : Readable fs next) : Leads fs blocked file next := by
  obtain ⟨text, own⟩ := readable
  induction h with
  | self first _ => exact .via first read asked (.self clear own)
  | via first before step _ ih => exact .via first before step (ih read asked)

section Listed

variable {found : List Location} (listed : files fs root = .ok found)
include listed

theorem listed_spec : Readable fs root ∧ found = reach fs [root] [] ∧
    ∀ file ∈ found, hasUnusable fs file = false := by
  unfold files at listed
  split at listed
  · cases listed
  · rename_i source read
    simp only at listed
    split at listed
    · cases listed
    · rename_i usable
      obtain rfl := Except.ok.inj listed
      refine ⟨⟨source, read⟩, rfl, ?_⟩
      simpa [List.any_eq_false] using usable

theorem mem_listed_iff : file ∈ found ↔ Leads fs [] root file := by
  obtain ⟨-, rfl, -⟩ := listed_spec listed
  rw [mem_reach]
  simp

theorem mem_targets_iff_imports {importer : Location} (h : importer ∈ found)
    (read : fs.read importer = .ok source) :
    file ∈ targets importer source ↔ Imports fs importer file := by
  constructor
  · exact imports_of_mem_targets read
  · rintro ⟨text, read', name, hn, same⟩
    obtain rfl : source = text := Except.ok.inj (read.symm.trans read')
    have usable := (listed_spec listed).2.2 importer h
    simp only [hasUnusable, read, List.any_eq_false] at usable
    exact mem_targets.2 ⟨name, hn, by simpa using usable name hn, same⟩

theorem listed_of_imports {importer : Location} (h : importer ∈ found)
    (step : Imports fs importer file) (readable : Readable fs file) : file ∈ found := by
  have chain := (mem_listed_iff listed).1 h
  obtain ⟨source, read⟩ := chain.last_readable
  have asked := (mem_targets_iff_imports listed h read).2 step
  exact (mem_listed_iff listed).2 (chain.snoc read asked (by simp) readable)

variable (same : ∀ file ∈ found, fs'.read file = fs.read file)
include same

/-- As long as no import that failed can be read, no other files are reached than before. -/
theorem listed_of_reaches
    (none : ∀ importer ∈ found, ∀ file, Imports fs importer file → Readable fs' file →
      Readable fs file) (chain : Reaches fs' root file) (readable : Readable fs' file) :
    file ∈ found := by
  induction chain with
  | refl => exact mem_files_root listed
  | @tail importer file _ step ih =>
    obtain ⟨source, read', asked⟩ := step
    have held := ih ⟨source, read'⟩
    have own : Imports fs importer file := ⟨source, (same importer held).symm.trans read', asked⟩
    exact listed_of_imports listed held own (none importer held file own readable)

theorem usable_of_listed
    (none : ∀ importer ∈ found, ∀ file, Imports fs importer file → Readable fs' file →
      Readable fs file) (chain : Reaches fs' root file) : hasUnusable fs' file = false := by
  cases read' : fs'.read file with
  | error fault => simp [hasUnusable, read']
  | ok source =>
    have held := listed_of_reaches listed same none chain ⟨source, read'⟩
    have usable := (listed_spec listed).2.2 file held
    rw [hasUnusable, same file held]
    exact usable

theorem root_tracks (read : fs.read root = .ok source) :
    Tracks fs' ((segments source).flatMap (Segment.fragments root (includeFile fs [root] root)))
      (((segments source).flatMap (Segment.fragments root (includeFile fs' [root] root))).flatMap
        Fragment.render) := by
  refine fragments_tracks fun next asked => includeFile_tracks [root] root next fun last chain => ?_
  apply same
  rw [mem_listed_iff listed]
  exact .via (by simp) read asked chain.unblock

omit same in
theorem revived_iff (read : fs.read root = .ok source) :
    Revived fs' ((segments source).flatMap (Segment.fragments root (includeFile fs [root] root))) ↔
      ∃ importer ∈ found, ∃ file, Imports fs importer file ∧ Readable fs' file ∧
        ¬ Readable fs file := by
  have whole (missing : Location) (fault : ReadFault) :
      .failed missing fault ∈ (segments source).flatMap
          (Segment.fragments root (includeFile fs [root] root)) ↔
        .failed missing fault ∈ includeFile fs [] root root := by
    rw [includeFile_of_ok (by simp) read]
    simp
  constructor
  · rintro ⟨missing, fault, failed, readable⟩
    obtain ⟨unread, -, own⟩ := (failed_mem_includeFile _ _ _).1 ((whole missing fault).1 failed)
    have gone := not_readable_of_error unread
    rcases own with rfl | ⟨importer, text, chain, held, asked⟩
    · exact absurd ⟨source, read⟩ gone
    · exact ⟨importer, (mem_listed_iff listed).2 chain, missing,
        imports_of_mem_targets held asked, readable, gone⟩
  · rintro ⟨importer, held, missing, step, readable, gone⟩
    have chain := (mem_listed_iff listed).1 held
    obtain ⟨text, read'⟩ := chain.last_readable
    have asked := (mem_targets_iff_imports listed held read').2 step
    cases unread : fs.read missing with
    | ok other => exact absurd ⟨other, unread⟩ gone
    | error fault =>
      refine ⟨missing, fault, (whole missing fault).2 ?_, readable⟩
      rw [failed_mem_includeFile]
      exact ⟨unread, by simp, .inr ⟨importer, text, chain, read', asked⟩⟩

end Listed

theorem render_opened (file importer : Location) (inner : List Fragment) :
    (Fragment.opened file :: inner ++ [Fragment.closed file importer]).flatMap Fragment.render =
      "# Imported from " ++ file.name ++ "\n" ++ inner.flatMap Fragment.render := by
  rw [List.cons_append, List.flatMap_cons, List.flatMap_append]
  exact congrArg (Fragment.render (.opened file) ++ ·) (List.append_nil _)

theorem source_eq_render {text : Text} (read : fs.read root = .ok source)
    (resolved : (Account.ofFile fs root).source = .ok text) :
    text = ((segments source).flatMap
      (Segment.fragments root (includeFile fs [root] root))).flatMap Fragment.render := by
  rw [Account.ofFile, includeRoot_ok read] at resolved
  simp only [Account.ofFragments] at resolved
  split at resolved
  · cases resolved
  · exact (Except.ok.inj resolved).symm

theorem source_ne_of_revived {found : List Location} (listed : files fs root = .ok found)
    (same : ∀ file ∈ found, fs'.read file = fs.read file) {importer : Location}
    (held : importer ∈ found) (step : Imports fs importer file) (readable : Readable fs' file)
    (gone : ¬ Readable fs file) :
    (Account.ofFile fs' root).source ≠ (Account.ofFile fs root).source := by
  intro equal
  obtain ⟨source, read⟩ := (listed_spec listed).1
  have read' := (same root (mem_files_root listed)).trans read
  obtain ⟨text, resolved⟩ := source_of_usable
    (fun _ => usable_of_listed listed (fun _ _ => rfl) fun _ _ _ _ h => h) read
  have departs := (root_tracks listed same read).departs
    ((revived_iff listed read).2 ⟨importer, held, file, step, readable, gone⟩)
  rw [← source_eq_render read resolved, ← source_eq_render read' (equal.trans resolved)] at departs
  exact departs.ne rfl

/-- The files that a root file is made of are listed in one file system, and another file system has
the same texts in them. In the first, the root file comes to a text. In the second it comes to the same
text exactly if no import of a listed file can be read there that could not be read in the first. -/
theorem source_eq_iff_listed {found : List Location} (listed : files fs root = .ok found)
    (same : ∀ file ∈ found, fs'.read file = fs.read file) :
    (∃ text, (Account.ofFile fs root).source = .ok text) ∧
      ((Account.ofFile fs' root).source = (Account.ofFile fs root).source ↔
        ∀ importer ∈ found, ∀ file, Imports fs importer file → Readable fs' file →
          Readable fs file) := by
  obtain ⟨source, read⟩ := (listed_spec listed).1
  have read' := (same root (mem_files_root listed)).trans read
  obtain ⟨text, resolved⟩ := source_of_usable
    (fun _ => usable_of_listed listed (fun _ _ => rfl) fun _ _ _ _ h => h) read
  refine ⟨⟨text, resolved⟩, ?_⟩
  constructor
  · intro equal importer held file step readable
    by_contra gone
    exact source_ne_of_revived listed same held step readable gone equal
  · intro none
    obtain ⟨text', resolved'⟩ := source_of_usable (fun _ => usable_of_listed listed same none) read'
    have kept := (root_tracks listed same read).same (by
      rw [revived_iff listed read]
      rintro ⟨importer, held, file, step, readable, gone⟩
      exact gone (none importer held file step readable))
    rw [resolved, resolved', source_eq_render read resolved, source_eq_render read' resolved', kept]

/-- A root file with an import that is not there. -/
def lacking : FileSystem where
  entries := [(inRoot "main.tom", .file (Utf8.encode "@import \"dep\"\n") 0)]
  clock := 1

/-- The root file, the import, and nothing else. -/
def complete : FileSystem where
  entries := lacking.entries ++ [(inRoot "dep.tom", .file (Utf8.encode "p:\n  bold\n") 1)]
  clock := 2

/-- The root file without the import, and a file that nothing asks for. -/
def unrelated : FileSystem where
  entries := lacking.entries ++ [(inRoot "spare.tom", .file (Utf8.encode "p:\n  bold\n") 1)]
  clock := 2

theorem read_lacking : lacking.read (inRoot "main.tom") = .ok "@import \"dep\"\n" := by
  decide +kernel

theorem eq_of_readable_lacking (readable : Readable lacking file) : file = inRoot "main.tom" := by
  obtain ⟨source, read⟩ := readable
  have place := FileSystem.mem_locations_of_read read
  simpa [FileSystem.locations, lacking] using place

theorem listed_lacking : ∃ found, files lacking (inRoot "main.tom") = .ok found ∧
    ∀ file ∈ found, file = inRoot "main.tom" := by
  have usable (file : Location) : hasUnusable lacking file = false := by
    cases read : lacking.read file with
    | error fault => simp [hasUnusable, read]
    | ok source =>
      obtain rfl := eq_of_readable_lacking ⟨source, read⟩
      decide +kernel
  have listed := files_of_usable (fun file _ => usable file) read_lacking
  refine ⟨_, listed, fun file held => ?_⟩
  exact eq_of_readable_lacking ((mem_listed_iff listed).1 held).last_readable

/-- The listed files are the same with and without the import, and the text is not. -/
theorem source_lacking_complete : ∃ found, files lacking (inRoot "main.tom") = .ok found ∧
    (∀ file ∈ found, Readable lacking file ∧ complete.read file = lacking.read file) ∧
    (Account.ofFile complete (inRoot "main.tom")).source ≠
      (Account.ofFile lacking (inRoot "main.tom")).source := by
  obtain ⟨found, listed, only⟩ := listed_lacking
  have same : ∀ file ∈ found, complete.read file = lacking.read file := by
    intro file held
    obtain rfl := only file held
    decide +kernel
  have step : Imports lacking (inRoot "main.tom") (inRoot "dep.tom") :=
    ⟨_, read_lacking, "dep", by decide +kernel, by decide +kernel⟩
  have readable : Readable complete (inRoot "dep.tom") :=
    ⟨"p:\n  bold\n", by decide +kernel⟩
  have gone : ¬ Readable lacking (inRoot "dep.tom") := by
    intro h
    exact absurd (eq_of_readable_lacking h) (by decide +kernel)
  refine ⟨found, listed, fun file held => ⟨?_, same file held⟩, ?_⟩
  · exact ((mem_listed_iff listed).1 held).last_readable
  · exact source_ne_of_revived listed same (mem_files_root listed) step readable gone

theorem source_unrelated : ∃ found, files lacking (inRoot "main.tom") = .ok found ∧
    (∀ file ∈ found, unrelated.read file = lacking.read file) ∧
    (Account.ofFile unrelated (inRoot "main.tom")).source =
      (Account.ofFile lacking (inRoot "main.tom")).source := by
  obtain ⟨found, listed, only⟩ := listed_lacking
  have same : ∀ file ∈ found, unrelated.read file = lacking.read file := by
    intro file held
    obtain rfl := only file held
    decide +kernel
  refine ⟨found, listed, same, (source_eq_iff_listed listed same).2.2 ?_⟩
  intro importer held file step readable
  obtain rfl := only importer held
  obtain ⟨source, read, name, hn, rfl⟩ := step
  obtain rfl := Except.ok.inj (read_lacking.symm.trans read)
  have wanted : names "@import \"dep\"\n" = [("dep" : Text)] := by decide +kernel
  rw [wanted, List.mem_singleton] at hn
  have gone : unrelated.read (target (inRoot "main.tom") "dep") = .error (.file .notFound) := by
    decide +kernel
  exact absurd (hn ▸ readable) (not_readable_of_error gone)

end Stylesheet.Import
