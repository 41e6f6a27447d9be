import Stylesheet.Import.Target
import Stylesheet.Remaining

/-!
# Inclusion of imports

Every import statement of a source is replaced by a marker and the content of the file it asks for, in
which statements are replaced in turn. A file that is already being included around the statement
contributes only its marker, with a warning. A file that cannot be read is replaced by another marker,
with an error. A file imported from two places is included twice.
-/

namespace Stylesheet.Import

open Text

/-- A part of a source whose imports are in place, or something worth saying on the way. -/
inductive Fragment where
  | text (content : Text)
  /-- A file begins here. -/
  | opened (file : Location)
  /-- A file ends here that `importer` asked for. -/
  | closed (file importer : Location)
  /-- A file is left out because it is open already. -/
  | circular (file : Location)
  /-- A file is left out because it cannot be read. -/
  | failed (file : Location) (fault : ReadFault)
  /-- A statement whose name no file can have. -/
  | unusable
deriving DecidableEq

/-- The fragments of a segment of the file `importer`, where `imported` gives those of an import. -/
def Segment.fragments (importer : Location) (imported : Location → List Fragment) :
    Segment → List Fragment
  | .text content => [.text content]
  | .statement name => if isUnusable name then [.unusable] else imported (target importer name)

/-- The fragments of a file that `importer` asks for, where the files in `active` are open. Opening a
file that can be read leaves fewer to open, so this comes to an end. -/
def includeFile (fs : FileSystem) (active : List Location) (importer file : Location) :
    List Fragment :=
  if file ∈ active then [.circular file]
  else
    match _ : fs.read file with
    | .error fault => [.failed file fault]
    | .ok source =>
      .opened file ::
        (segments source).flatMap (Segment.fragments file (includeFile fs (file :: active) file)) ++
        [.closed file importer]
termination_by remaining fs.locations active
decreasing_by
  exact remaining_cons_lt (FileSystem.mem_locations_of_read ‹_›) ‹_›

def includeRoot (fs : FileSystem) (root : Location) : Except ReadFault (List Fragment) :=
  (fs.read root).map fun source =>
    (segments source).flatMap (Segment.fragments root (includeFile fs [root] root))

def Fragment.render : Fragment → Text
  | text content => content
  | opened file => "# Imported from " ++ file.name ++ "\n"
  | closed _ _ => []
  | circular file => "# Imported from " ++ file.name ++ "\n"
  | failed file _ => "# Failed to import: " ++ file.render
  | unusable => []

/-- Something that goes wrong with an import without stopping the others. -/
inductive Problem where
  | circular (file : Location)
  | failed (file : Location) (fault : ReadFault)
deriving DecidableEq

def Problem.message : Problem → Text
  | circular file => "Circular import detected: " ++ file.name
  | failed file fault => "Cannot import \"" ++ file.name ++ "\": " ++ fault.message

def Fragment.problem? : Fragment → Option Problem
  | circular file => some (.circular file)
  | failed file fault => some (.failed file fault)
  | _ => none

/-- The note that a fragment leaves for someone who follows the work in detail. -/
def Fragment.note? : Fragment → Option Text
  | closed file importer => some ("inlined " ++ file.render ++ " into " ++ importer.render)
  | _ => none

/-- How the inclusion of imports went, up to its end or to what stopped it. -/
structure Account where
  /-- What to tell someone who follows the work in detail. -/
  notes : List Text
  problems : List Problem
  source : Except Failure Text

namespace Account

def warnings (a : Account) : List Text :=
  a.problems.filterMap fun
    | .circular file => some (Problem.circular file).message
    | .failed _ _ => none

def errors (a : Account) : List Text :=
  a.problems.filterMap fun
    | .failed file fault => some (Problem.failed file fault).message
    | .circular _ => none

/-- The account of the fragments of a root file. A name that no file can have stops the work. -/
def ofFragments (fragments : List Fragment) : Account :=
  let done := fragments.takeWhile (· != .unusable)
  { notes := done.filterMap Fragment.note?
    problems := done.filterMap Fragment.problem?
    source :=
      if fragments.contains .unusable then .error .unusableName
      else .ok (fragments.flatMap Fragment.render) }

def ofFile (fs : FileSystem) (root : Location) : Account :=
  match includeRoot fs root with
  | .error fault => { notes := [], problems := [], source := .error (.unreadable root fault) }
  | .ok fragments => ofFragments fragments

end Account

/-- A root file, and the messages about its imports. -/
structure Resolver where
  root : Location
  warnings : List Text := []
  errors : List Text := []

namespace Resolver

def clear (r : Resolver) : Resolver :=
  { r with warnings := [], errors := [] }

def record (r : Resolver) (a : Account) : Resolver :=
  { r with warnings := r.warnings ++ a.warnings, errors := r.errors ++ a.errors }

/-- Puts the imports of the root file in place. The messages of earlier times are forgotten first. -/
def resolve (r : Resolver) (fs : FileSystem) : Resolver × Except Failure Text :=
  let account := Account.ofFile fs r.root
  (r.clear.record account, account.source)

end Resolver

end Stylesheet.Import
