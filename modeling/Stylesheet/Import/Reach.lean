import Stylesheet.Import.Target
import Stylesheet.Remaining

/-!
# Files reached through imports

The files whose change can change a source: the root file and every readable file that it imports,
directly or through others.
-/

namespace Stylesheet.Import

/-- The files that the statements of a file ask for. -/
def targets (file : Location) (source : Text) : List Location :=
  ((names source).filter (!isUnusable ·)).map (target file)

/-- The readable files reached from the `pending` ones, in depth-first order and each once, except
those in `seen` and what is reached only through them. -/
def reach (fs : FileSystem) : (pending seen : List Location) → List Location
  | [], _ => []
  | file :: pending, seen =>
    if file ∈ seen then reach fs pending seen
    else
      match _ : fs.read file with
      | .error _ => reach fs pending (file :: seen)
      | .ok source => file :: reach fs (targets file source ++ pending) (file :: seen)
termination_by pending seen => (remaining fs.locations seen, pending.length)
decreasing_by
  · exact Prod.Lex.right _ (by simp)
  · rcases Nat.lt_or_eq_of_le (remaining_cons_le fs.locations seen file) with h | h
    · exact Prod.Lex.left _ _ h
    · rw [h]; exact Prod.Lex.right _ (by simp)
  · exact Prod.Lex.left _ _ (remaining_cons_lt (FileSystem.mem_locations_of_read ‹_›) ‹_›)

/-- Whether a file that can be read has a statement whose name no file can have. -/
def hasUnusable (fs : FileSystem) (file : Location) : Bool :=
  match fs.read file with
  | .ok source => (names source).any isUnusable
  | .error _ => false

def files (fs : FileSystem) (root : Location) : Except Failure (List Location) :=
  match fs.read root with
  | .error fault => .error (.unreadable root fault)
  | .ok _ =>
    let found := reach fs [root] []
    if found.any (hasUnusable fs) then .error .unusableName else .ok found

end Stylesheet.Import
