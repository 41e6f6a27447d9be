import Stylesheet.Token.Defaults

/-!
# Token tables

Layers of token tables are laid over the built-in ones; a later layer wins name by name. Looking up a
token falls back to the built-in value where the tables say nothing.
-/

namespace Stylesheet.Token

/-- The value of a token in tables, if its category and name are there. -/
def Tables.find? (tables : Tables) (category name : Text) : Option Value :=
  (tables.get? category).bind (·.get? name)

/-- Tables with a layer over them, category by category and name by name. -/
def Tables.overlay (tables layer : Tables) : Tables :=
  layer.entries.foldl
    (fun t (category, table) => t.insert category (((t.get? category).getD ∅).merge table)) tables

/-- The built-in tables under layers, of which some may be missing. -/
def Tables.ofLayers (layers : List (Option Tables)) : Tables :=
  layers.foldl (fun t layer => t.overlay (layer.getD ∅)) defaults

/-- The tables of a source, whose values are texts. -/
def Tables.ofTexts (tokens : Table (Table Text)) : Tables :=
  tokens.map (·.map .text)

/-- The value of a token, from the tables or else built in. A value that says nothing is passed over. -/
def Tables.lookup (tables : Tables) (category name : Text) : Option Value :=
  match (tables.find? category name).filter Value.isPresent with
  | some value => some value
  | none => (defaults.find? category name).filter Value.isPresent

/-- The value of a token where it is shown, and its name if it has none. -/
def Tables.show (tables : Tables) (category name : Text) : Text :=
  match tables.lookup category name with
  | some value => value.render
  | none => name

/-- The text of a token where a text is needed, and its name if it has none. -/
def Tables.textOf (tables : Tables) (category name : Text) : Except Misfit Text :=
  match tables.lookup category name with
  | some value => value.asText
  | none => .ok name

end Stylesheet.Token
