import Mathlib.Control.Monad.Basic
import Mathlib.Logic.Relation
import Stylesheet.Import.Inclusion
import Stylesheet.Import.Reach

/-!
# The graph of imports

Two searches go through the files that a root file imports. Listing them keeps one list of the files
seen so far, anywhere; putting them in place keeps the files that are open around a statement, so a
file imported from two places is read twice. Both come to the same files: those that a chain of
imports leads to.

* `Leads`: a chain of imports between readable files that stays clear of some files;
* `leads_iff`: the rest of a chain need not come back to where it started;
* `mem_reach`, `opened_mem_includeFile`: what the two searches find are the ends of such chains.
-/

namespace Stylesheet.Import

def Readable (fs : FileSystem) (file : Location) : Prop :=
  ∃ source, fs.read file = .ok source

/-- A file can be read and has a statement that asks for another. -/
def Imports (fs : FileSystem) (importer file : Location) : Prop :=
  ∃ source, fs.read importer = .ok source ∧ ∃ name ∈ names source, target importer name = file

/-- A chain of imports leads from one file to another. All files on it can be read, and none of them
is blocked. -/
inductive Leads (fs : FileSystem) (blocked : List Location) : Location → Location → Prop
  | self {file : Location} {source : Text} (clear : file ∉ blocked)
      (read : fs.read file = .ok source) : Leads fs blocked file file
  | via {file next last : Location} {source : Text} (clear : file ∉ blocked)
      (read : fs.read file = .ok source) (asked : next ∈ targets file source)
      (rest : Leads fs blocked next last) : Leads fs blocked file last

variable {fs : FileSystem} {blocked : List Location} {file last : Location} {source : Text}

namespace Leads

theorem first_clear (h : Leads fs blocked file last) : file ∉ blocked := by
  cases h with
  | self clear _ => exact clear
  | via clear _ _ _ => exact clear

theorem first_readable (h : Leads fs blocked file last) : Readable fs file := by
  cases h with
  | self _ read => exact ⟨_, read⟩
  | via _ read _ _ => exact ⟨_, read⟩

theorem last_clear (h : Leads fs blocked file last) : last ∉ blocked := by
  induction h with
  | self clear _ => exact clear
  | via _ _ _ _ ih => exact ih

theorem unblock {extra : Location} (h : Leads fs (extra :: blocked) file last) :
    Leads fs blocked file last := by
  induction h with
  | self clear read => exact .self (fun hb => clear (List.mem_cons_of_mem _ hb)) read
  | via clear read asked _ ih =>
    exact .via (fun hb => clear (List.mem_cons_of_mem _ hb)) read asked ih

/-- A chain stays clear of a further file, or what follows the last visit to that file does. -/
theorem clear_of {hub : Location} (read : fs.read hub = .ok source)
    (h : Leads fs blocked file last) :
    Leads fs (hub :: blocked) file last ∨ last = hub ∨
      ∃ next ∈ targets hub source, Leads fs (hub :: blocked) next last := by
  -- From the end of the chain backwards: a visit to `hub` that comes earlier is forgotten.
  induction h with
  | @self file _ clear own =>
    by_cases same : file = hub
    · exact .inr (.inl same)
    · exact .inl (.self (by simp [same, clear]) own)
  | @via file next last _ clear own asked _ ih =>
    rcases ih with rest | later
    · by_cases same : file = hub
      · subst same
        obtain rfl : _ = source := Except.ok.inj (own.symm.trans read)
        exact .inr (.inr ⟨next, asked, rest⟩)
      · exact .inl (.via (by simp [same, clear]) own asked rest)
    · exact .inr later

end Leads

/-- A chain from a file ends there, or goes on from one of its targets and does not come back. -/
theorem leads_iff (clear : file ∉ blocked) (read : fs.read file = .ok source) :
    Leads fs blocked file last ↔
      last = file ∨ ∃ next ∈ targets file source, Leads fs (file :: blocked) next last := by
  constructor
  · intro h
    rcases h.clear_of read with away | later
    · exact absurd List.mem_cons_self away.first_clear
    · exact later
  · rintro (rfl | ⟨next, asked, rest⟩)
    · exact .self clear read
    · exact .via clear read asked rest.unblock

/-- Blocking a file that cannot be read makes no difference. -/
theorem leads_block_unreadable {hub : Location} (unread : ¬ Readable fs hub) :
    Leads fs (hub :: blocked) file last ↔ Leads fs blocked file last := by
  refine ⟨Leads.unblock, fun h => ?_⟩
  induction h with
  | @self file _ clear read =>
    have other : file ≠ hub := fun same => unread ⟨_, same ▸ read⟩
    exact .self (by simp [other, clear]) read
  | @via file _ _ _ clear read asked _ ih =>
    have other : file ≠ hub := fun same => unread ⟨_, same ▸ read⟩
    exact .via (by simp [other, clear]) read asked ih

theorem not_readable_of_error {fault : ReadFault} (h : fs.read file = .error fault) :
    ¬ Readable fs file := by
  rintro ⟨source, read⟩
  rw [h] at read
  cases read

theorem mem_reach (pending seen : List Location) :
    last ∈ reach fs pending seen ↔ ∃ file ∈ pending, Leads fs seen file last := by
  fun_induction reach fs pending seen with
  | case1 => simp
  | case2 file pending seen known ih =>
    have none : ¬ Leads fs seen file last := fun h => h.first_clear known
    simp only [ih, List.mem_cons, exists_eq_or_imp, none, false_or]
  | case3 file pending seen new fault read ih =>
    have unread := not_readable_of_error read
    have none : ¬ Leads fs seen file last := fun h => unread h.first_readable
    simp only [ih, leads_block_unreadable unread, List.mem_cons, exists_eq_or_imp, none, false_or]
  | case4 file pending seen new source read ih =>
    have own : Leads fs seen file last ↔ _ := leads_iff new read
    rw [List.mem_cons, ih]
    constructor
    · rintro (rfl | ⟨p, hp, h⟩)
      · exact ⟨last, List.mem_cons_self, own.2 (.inl rfl)⟩
      · rcases List.mem_append.1 hp with asked | waiting
        · exact ⟨file, List.mem_cons_self, own.2 (.inr ⟨p, asked, h⟩)⟩
        · exact ⟨p, List.mem_cons_of_mem file waiting, h.unblock⟩
    · rintro ⟨p, hp, h⟩
      -- A chain through `file` can be started at `file`, which the search does first.
      rcases h.clear_of read with away | rfl | ⟨next, asked, rest⟩
      · rcases List.mem_cons.1 hp with rfl | waiting
        · exact absurd List.mem_cons_self away.first_clear
        · exact .inr ⟨p, List.mem_append_right _ waiting, away⟩
      · exact .inl rfl
      · exact .inr ⟨next, List.mem_append_left _ asked, rest⟩

theorem nodup_reach (pending seen : List Location) : (reach fs pending seen).Nodup := by
  fun_induction reach fs pending seen with
  | case1 => exact List.nodup_nil
  | case2 file pending seen known ih => exact ih
  | case3 file pending seen new fault read ih => exact ih
  | case4 file pending seen new source read ih =>
    refine List.nodup_cons.2 ⟨fun again => ?_, ih⟩
    obtain ⟨p, -, h⟩ := (mem_reach _ _).1 again
    exact h.last_clear List.mem_cons_self

/-! ## Putting the files in place -/

theorem mem_names {name : Text} : name ∈ names source ↔ .statement name ∈ segments source := by
  constructor
  · intro h
    obtain ⟨segment, hs, same⟩ := List.mem_filterMap.1 h
    cases segment with
    | text content => cases same
    | statement other => exact Option.some.inj same ▸ hs
  · intro h
    exact List.mem_filterMap.2 ⟨_, h, rfl⟩

theorem mem_targets {next : Location} :
    next ∈ targets file source ↔
      ∃ name ∈ names source, isUnusable name = false ∧ target file name = next := by
  simp [targets, and_assoc]

/-- What is put in place of the statements of a file, other than its own text. -/
theorem mem_fragments {imported : Location → List Fragment} {fragment : Fragment}
    (other : ∀ content, fragment ≠ .text content) :
    fragment ∈ (segments source).flatMap (Segment.fragments file imported) ↔
      (fragment = .unusable ∧ (names source).any isUnusable = true) ∨
        ∃ next ∈ targets file source, fragment ∈ imported next := by
  constructor
  · intro h
    obtain ⟨segment, hs, hf⟩ := List.mem_flatMap.1 h
    cases segment with
    | text content => exact absurd (List.mem_singleton.1 hf) (other content)
    | statement name =>
      have listed := mem_names.2 hs
      cases unusable : isUnusable name with
      | true =>
        rw [Segment.fragments, if_pos unusable] at hf
        exact .inl ⟨List.mem_singleton.1 hf, List.any_eq_true.2 ⟨name, listed, unusable⟩⟩
      | false =>
        rw [Segment.fragments, if_neg (by simp [unusable])] at hf
        exact .inr ⟨_, mem_targets.2 ⟨name, listed, unusable, rfl⟩, hf⟩
  · rintro (⟨rfl, any⟩ | ⟨next, asked, hf⟩)
    · obtain ⟨name, listed, unusable⟩ := List.any_eq_true.1 any
      refine List.mem_flatMap.2 ⟨_, mem_names.1 listed, ?_⟩
      simp [Segment.fragments, unusable]
    · obtain ⟨name, listed, usable, rfl⟩ := mem_targets.1 asked
      refine List.mem_flatMap.2 ⟨_, mem_names.1 listed, ?_⟩
      simpa [Segment.fragments, usable] using hf

theorem includeFile_of_mem {active : List Location} (open_ : file ∈ active) (importer : Location) :
    includeFile fs active importer file = [.circular file] := by
  rw [includeFile, if_pos open_]

theorem includeFile_of_error {active : List Location} {fault : ReadFault} (closed : file ∉ active)
    (read : fs.read file = .error fault) (importer : Location) :
    includeFile fs active importer file = [.failed file fault] := by
  rw [includeFile, if_neg closed]
  split
  · rename_i other read'
    rw [Except.error.inj (read.symm.trans read')]
  · rename_i read'
    cases read.symm.trans read'

theorem includeFile_of_ok {active : List Location} (closed : file ∉ active)
    (read : fs.read file = .ok source) (importer : Location) :
    includeFile fs active importer file =
      .opened file ::
        (segments source).flatMap (Segment.fragments file (includeFile fs (file :: active) file)) ++
        [.closed file importer] := by
  rw [includeFile, if_neg closed]
  split
  · rename_i read'
    cases read.symm.trans read'
  · rename_i other read'
    rw [Except.ok.inj (read.symm.trans read')]

theorem opened_mem_includeFile (active : List Location) (importer file : Location) :
    .opened last ∈ includeFile fs active importer file ↔ Leads fs active file last := by
  fun_induction includeFile fs active importer file with
  | case1 active importer file open_ =>
    have none : ¬ Leads fs active file last := fun h => h.first_clear open_
    simp [none]
  | case2 active importer file closed fault read =>
    have none : ¬ Leads fs active file last :=
      fun h => not_readable_of_error read h.first_readable
    simp [none]
  | case3 active importer file closed source read ih =>
    have inside : .opened last ∈ (segments source).flatMap
          (Segment.fragments file (includeFile fs (file :: active) file)) ↔
        ∃ next ∈ targets file source, Leads fs (file :: active) next last := by
      rw [mem_fragments (by simp)]
      simp [ih]
    rw [leads_iff closed read, ← inside]
    simp

/-- The files that are read while the imports of a root file are put in place. -/
def readFiles (fs : FileSystem) (root : Location) : List Location :=
  match includeRoot fs root with
  | .error _ => []
  | .ok fragments => root :: fragments.filterMap fun
    | .opened file => some file
    | _ => none

theorem includeRoot_ok {root : Location} (read : fs.read root = .ok source) :
    includeRoot fs root = .ok
      ((segments source).flatMap (Segment.fragments root (includeFile fs [root] root))) := by
  rw [includeRoot, read]
  rfl

theorem mem_readFiles {root : Location} (read : fs.read root = .ok source) :
    file ∈ readFiles fs root ↔ Leads fs [] root file := by
  have opened (fragments : List Fragment) :
      (file ∈ fragments.filterMap fun
        | .opened file => some file
        | _ => none) ↔ .opened file ∈ fragments := by
    rw [List.mem_filterMap]
    constructor
    · rintro ⟨fragment, hf, same⟩
      cases fragment with
      | opened other => exact Option.some.inj same ▸ hf
      | _ => cases same
    · intro hf
      exact ⟨_, hf, rfl⟩
  rw [leads_iff (by simp) read, readFiles, includeRoot_ok read, List.mem_cons, opened,
    mem_fragments (by simp)]
  simp [opened_mem_includeFile]

/-! ## Both searches together -/

section Usable

variable (usable : ∀ file, hasUnusable fs file = false)
include usable

theorem names_usable (read : fs.read file = .ok source) :
    (names source).any isUnusable = false := by
  simpa [hasUnusable, read] using usable file

theorem unusable_not_mem_includeFile (active : List Location) (importer file : Location) :
    .unusable ∉ includeFile fs active importer file := by
  fun_induction includeFile fs active importer file with
  | case1 => simp
  | case2 => simp
  | case3 active importer file closed source read ih =>
    have inside : .unusable ∉ (segments source).flatMap
        (Segment.fragments file (includeFile fs (file :: active) file)) := by
      rw [mem_fragments (by simp), names_usable usable read]
      simp [ih]
    simpa using inside

theorem source_ofFile {root : Location} (read : fs.read root = .ok source) :
    ∃ text, (Account.ofFile fs root).source = .ok text := by
  have inside : .unusable ∉ (segments source).flatMap
      (Segment.fragments root (includeFile fs [root] root)) := by
    rw [mem_fragments (by simp), names_usable usable read]
    simp [unusable_not_mem_includeFile usable]
  rw [Account.ofFile, includeRoot_ok read]
  simp only [Account.ofFragments, List.contains_eq_mem, inside, decide_false, Bool.false_eq_true,
    if_false]
  exact ⟨_, rfl⟩

theorem mem_targets_of_usable {next : Location} (read : fs.read file = .ok source) :
    next ∈ targets file source ↔ ∃ name ∈ names source, target file name = next := by
  have all := names_usable usable read
  rw [List.any_eq_false] at all
  rw [mem_targets]
  constructor
  · rintro ⟨name, listed, -, same⟩
    exact ⟨name, listed, same⟩
  · rintro ⟨name, listed, same⟩
    exact ⟨name, listed, by simpa using all name listed, same⟩

theorem leads_iff_reachable {root : Location} :
    Leads fs [] root file ↔ Readable fs file ∧ Relation.ReflTransGen (Imports fs) root file := by
  constructor
  · intro h
    induction h with
    | self _ read => exact ⟨⟨_, read⟩, .refl⟩
    | via _ read next _ ih =>
      exact ⟨ih.1, .head ⟨_, read, (mem_targets_of_usable usable read).1 next⟩ ih.2⟩
  · rintro ⟨⟨source, read⟩, chain⟩
    induction chain using Relation.ReflTransGen.head_induction_on with
    | refl => exact .self (by simp) read
    | head step _ ih =>
      obtain ⟨source, read, next⟩ := step
      exact .via (by simp) read ((mem_targets_of_usable usable read).2 next) ih

end Usable

/-- Listing the files that a root file imports and putting them in place fail alike, if the root file
cannot be read. Otherwise the list starts with the root file, has no file twice, and has exactly the
files that are read to put them in place. These are the readable files that imports lead to. -/
theorem files_agree (fs : FileSystem) (root : Location)
    (usable : ∀ file, hasUnusable fs file = false) :
    (∀ fault, fs.read root = .error fault →
      files fs root = .error (.unreadable root fault) ∧
        (Account.ofFile fs root).source = .error (.unreadable root fault)) ∧
    (∀ source, fs.read root = .ok source →
      (∃ text, (Account.ofFile fs root).source = .ok text) ∧
      ∃ found, files fs root = .ok found ∧ found.head? = some root ∧ found.Nodup ∧
        ∀ file, (file ∈ found ↔ file ∈ readFiles fs root) ∧
          (file ∈ found ↔ Readable fs file ∧ Relation.ReflTransGen (Imports fs) root file)) := by
  constructor
  · intro fault unread
    constructor
    · rw [files, unread]
    · rw [Account.ofFile, includeRoot, unread]
      rfl
  · intro source read
    refine ⟨source_ofFile usable read, reach fs [root] [], ?_, ?_, nodup_reach _ _, fun file => ?_⟩
    · rw [files, read]
      simp [usable]
    · rw [reach, if_neg (by simp)]
      split
      · rename_i unread
        rw [read] at unread
        cases unread
      · rfl
    · have found : file ∈ reach fs [root] [] ↔ Leads fs [] root file := by
        rw [mem_reach]
        simp
      rw [found]
      exact ⟨(mem_readFiles read).symm, leads_iff_reachable usable⟩

def inRoot (name : Text) : Location := [name]

/-- Two files that import each other, and one that both import. -/
def ring : FileSystem where
  entries :=
    [(inRoot "a.tom", .file (Utf8.encode "@import \"b\"\n@import \"c\"\n") 0),
     (inRoot "b.tom", .file (Utf8.encode "@import \"a\"\n@import './c.tom'\n") 1),
     (inRoot "c.tom", .file (Utf8.encode "p:\n  bold\n") 2)]
  clock := 3

theorem files_ring : ∃ found, files ring (inRoot "a.tom") = .ok found ∧
    found.head? = some (inRoot "a.tom") ∧ found.Nodup ∧ inRoot "c.tom" ∈ found ∧
    inRoot "c.tom" ∈ readFiles ring (inRoot "a.tom") := by
  have listed : ∀ file ∈ ring.locations, hasUnusable ring file = false := by decide +kernel
  have usable (file : Location) : hasUnusable ring file = false := by
    cases read : ring.read file with
    | error fault => simp [hasUnusable, read]
    | ok source => exact listed file (FileSystem.mem_locations_of_read read)
  have read_a : ring.read (inRoot "a.tom") = .ok "@import \"b\"\n@import \"c\"\n" := by
    decide +kernel
  have read_b : ring.read (inRoot "b.tom") = .ok "@import \"a\"\n@import './c.tom'\n" := by
    decide +kernel
  have read_c : ring.read (inRoot "c.tom") = .ok "p:\n  bold\n" := by decide +kernel
  have to_b : Imports ring (inRoot "a.tom") (inRoot "b.tom") :=
    ⟨_, read_a, "b", by decide +kernel, by decide +kernel⟩
  have to_c : Imports ring (inRoot "b.tom") (inRoot "c.tom") :=
    ⟨_, read_b, "./c.tom", by decide +kernel, by decide +kernel⟩
  obtain ⟨-, found, done, first, once, members⟩ :=
    (files_agree ring (inRoot "a.tom") usable).2 _ read_a
  have reached := (members (inRoot "c.tom")).2.2 ⟨⟨_, read_c⟩, .tail (.single to_b) to_c⟩
  exact ⟨found, done, first, once, reached, (members _).1.1 reached⟩

end Stylesheet.Import
