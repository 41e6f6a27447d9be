import Stylesheet.FileSystem
import Stylesheet.Import.Statement

/-!
# Import targets

The name in an import statement is a path from the directory of the file that holds the statement. The
ending `.tom` may be left out.
-/

namespace Stylesheet.Import

open Text

def sourceEnding : Text := ".tom"

/-- The path that the name in an import statement stands for. -/
def pathOf (name : Text) : Path :=
  .ofText (if ends sourceEnding name then name else name ++ sourceEnding)

/-- The file that a statement in the file `importer` asks for. -/
def target (importer : Location) (name : Text) : Location :=
  (pathOf name).locate importer.dropLast

/-- Whether a name cannot be that of any file. -/
def isUnusable (name : Text) : Bool :=
  name.contains '\x00'

/-- Why the imports of a file cannot be followed. -/
inductive Failure where
  | unreadable (file : Location) (fault : ReadFault)
  | unusableName
deriving DecidableEq

def Failure.message : Failure → Text
  | unreadable file fault => "cannot read " ++ file.render ++ ": " ++ fault.message
  | unusableName => "a file name holds a null character"

/-- The file that a statement asks for, if the importing file is given by a path from a directory. -/
def targetFrom (directory : Location) (importer : Path) (name : Text) : Except Failure Location :=
  let path := importer.parent.append (pathOf name)
  if path.hasNul then .error .unusableName else .ok (path.locate directory)

end Stylesheet.Import
