import Stylesheet.FileSystem
import Stylesheet.Token.Loader
import Stylesheet.Token.Tables

/-!
# Token files

A token file is a document that maps categories to tables, and each table maps names to values. Values
of any kind count as their text, and sequences as several texts.
-/

namespace Stylesheet.Token

open Text

inductive FileProblem where
  /-- No file can have the name. -/
  | unusableName
  | unreadable (fault : ReadFault)
  | invalid (fault : LoadFault)
  | notMapping
  | notTable (category : Text)
  /-- A name or a value has no text. -/
  | untold
deriving DecidableEq

/-- The problem with a file that a loader makes no document of. -/
def FileProblem.ofFault : LoadFault → FileProblem
  | .undecodable fault => .unreadable (.encoding fault)
  | fault => .invalid fault

/-- The problem with the file at a path in words. -/
def FileProblem.message (path : Path) : FileProblem → Text
  | unusableName => path.render ++ ": a file name holds a null character"
  | unreadable fault => path.render ++ ": " ++ fault.message
  | invalid _ => path.render ++ ": invalid YAML"
  | notMapping => path.render ++ ": expected a mapping of token categories"
  | notTable category => path.render ++ ": category '" ++ category ++ "' must be a mapping"
  | untold => path.render ++ ": a name or a value has no text"

/-- A value of a document as the value of a token. -/
def Value.ofItem : Item → Option Value
  | .sequence items => (items.mapM id).map .parts
  | .other shown => shown.map .text

def tableOfEntries (entries : List (Shown × Item)) : Option (Table Value) := do
  let pairs ← entries.mapM fun (name, item) => do return (← name, ← Value.ofItem item)
  return .ofList pairs

def tableOfFiling : Shown × Filing → Except FileProblem (Text × Table Value)
  | (none, _) => .error .untold
  | (some category, .other) => .error (.notTable category)
  | (some category, .table entries) =>
    match tableOfEntries entries with
    | none => .error .untold
    | some table => .ok (category, table)

def Tables.ofContent : Content → Except FileProblem Tables
  | .nothing => .ok ∅
  | .mapping categories => do
    return .ofList (← categories.mapM tableOfFiling)
  | .other => .error .notMapping

/-- The tables of the token file at a path, seen from a directory. -/
def Tables.ofFile (load : Loader) (fs : FileSystem) (directory : Location) (path : Path) :
    Except FileProblem Tables :=
  if path.hasNul then .error .unusableName
  else
    match FileSystem.bytesOf (fs.openedPath directory path) with
    | .error fault => .error (.unreadable (.file fault))
    | .ok bytes =>
      match load bytes with
      | .error fault => .error (.ofFault fault)
      | .ok content => Tables.ofContent content

end Stylesheet.Token
