import Stylesheet.Command.Build
import Stylesheet.Import.Reach

/-!
# Watching

A watch looks at the stamps of the files that the input is made of. When one has changed it builds
again, and then the files to look at may be others.
-/

namespace Stylesheet.Command

open Text

/-- Files with the stamps that were seen on them; files that are missing are left out. -/
abbrev Snapshot := List (Location × Nat)

def Snapshot.take (fs : FileSystem) (watched : List Location) : Snapshot :=
  watched.filterMap fun file =>
    match fs.visit file with
    | .ok entry => some (file, entry.stamp)
    | .error _ => none

/-- The files whose stamps are not those of an earlier snapshot. -/
def Snapshot.changes (current seen : Snapshot) : List Location :=
  (current.filter fun (file, stamp) => seen.lookup file != some stamp).map Prod.fst

/-- Whether a text comes before another by the numbers of its characters, or is the same. -/
def isUpTo (t u : Text) : Bool :=
  !decide (u < t)

def changedLine (files : List Location) : Line :=
  .out ("Changed: " ++ join ", " ((files.map Location.name).mergeSort isUpTo))

/-- A watch between two looks at the files. -/
structure Watch where
  job : Job
  watched : List Location
  /-- Their stamps as they were last seen. -/
  seen : Snapshot

namespace Watch

/-- A watch that has just looked. -/
def look (job : Job) (fs : FileSystem) (watched : List Location) : Watch :=
  { job, watched, seen := .take fs watched }

def begin (job : Job) (fs : FileSystem) : Except Breakdown (List Line × Watch) :=
  match Import.files fs job.root with
  | .error failure => .error (.unreadable failure)
  | .ok watched =>
    .ok ([.out ("Watching " ++ ofNat watched.length ++ " file(s)")], look job fs watched)

/-- Finds the files to look at after a build. They stay the same if the input cannot be read. -/
def refresh (w : Watch) (fs : FileSystem) : List Line × Except Breakdown Watch :=
  match Import.files fs w.job.root with
  | .ok watched => ([], .ok (look w.job fs watched))
  | .error .unusableName => ([], .error .unusableName)
  | .error failure =>
    ([.err ("WARNING tomato.cli: keeping previous watch list: " ++ failure.message)],
     .ok (look w.job fs w.watched))

/-- Looks at the files, and builds again if one has changed. -/
def poll (w : Watch) (fs : FileSystem) : Attempt Watch :=
  let current := Snapshot.take fs w.watched
  if current = w.seen then { files := fs, lines := [], result := .ok w }
  else
    let built := w.job.build fs
    let lines := changedLine (current.changes w.seen) :: built.lines
    match built.result with
    | .error b => { files := built.files, lines, result := .error b }
    | .ok _ =>
      let (more, result) := w.refresh built.files
      { files := built.files, lines := lines ++ more, result }

end Watch

end Stylesheet.Command
