import Stylesheet.Remaining
import Stylesheet.Table

/-!
# Documents

What a source says, before any property line is given a meaning: token tables, components and style
rules. Property lines are kept as they were written.

A line `use card` stands for the lines of the component `card`, in which further such lines are
replaced in turn. A component that is not defined stands for nothing, and so does one that is already
being replaced, so that components which use each other come to an end.
-/

namespace Stylesheet

/-- The lines of a component or of a style rule. -/
structure Block where
  /-- Lines that belong to the block itself. -/
  props : List Text := []
  /-- Lines of the blocks nested in it, by the name of the nested block. -/
  nested : Table (List Text) := ∅
deriving DecidableEq

instance : Inhabited Block := ⟨{}⟩

def Block.addProp (b : Block) (line : Text) : Block :=
  { b with props := b.props ++ [line] }

/-- Opens a nested block; one of the same name loses its lines. -/
def Block.openNested (b : Block) (name : Text) : Block :=
  { b with nested := b.nested.insert name [] }

/-- Adds a line to a nested block, which is made if it is not there. -/
def Block.addNested (b : Block) (name line : Text) : Block :=
  { b with nested := b.nested.insert name ((b.nested.get? name).getD [] ++ [line]) }

structure Document where
  /-- Token values by category and name. -/
  tokens : Table (Table Text) := ∅
  components : Table Block := ∅
  styles : Table Block := ∅
deriving DecidableEq

instance : Inhabited Document := ⟨{}⟩

namespace Document

/-- Makes sure that a token category is there. -/
def openCategory (d : Document) (category : Text) : Document :=
  if d.tokens.contains category then d
  else { d with tokens := d.tokens.insert category ∅ }

/-- Gives a token of an open category its value. -/
def setToken (d : Document) (category name value : Text) : Document :=
  { d with tokens := d.tokens.modify category (·.insert name value) }

/-- Starts a component; one of the same name loses its content. -/
def openComponent (d : Document) (name : Text) : Document :=
  { d with components := d.components.insert name {} }

/-- Starts a style rule; one of the same selector loses its content. -/
def openStyle (d : Document) (selector : Text) : Document :=
  { d with styles := d.styles.insert selector {} }

def modifyComponent (d : Document) (name : Text) (f : Block → Block) : Document :=
  { d with components := d.components.modify name f }

def modifyStyle (d : Document) (selector : Text) (f : Block → Block) : Document :=
  { d with styles := d.styles.modify selector f }

end Document

namespace Component

open Text

def reference? (line : Text) : Option Text :=
  (dropLead? "use " line).map trim

/-- Lines with the components they use put in their place. The components in `active` are being
replaced around these lines. -/
def expand (components : Table Block) (active : List Text) : List Text → List Text
  | [] => []
  | line :: rest =>
    match reference? line with
    | none => line :: expand components active rest
    | some name =>
      match _ : components.get? name with
      | none => expand components active rest
      | some block =>
        if name ∈ active then expand components active rest
        else expand components (name :: active) block.props ++ expand components active rest
termination_by lines => (remaining components.keys active, lines.length)
decreasing_by
  all_goals first
    | exact Prod.Lex.right _ (by simp)
    | exact Prod.Lex.left _ _ (remaining_cons_lt (Table.mem_keys_of_get? ‹_›) ‹_›)

end Component

end Stylesheet
