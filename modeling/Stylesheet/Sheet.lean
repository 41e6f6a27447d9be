import Stylesheet.Document
import Stylesheet.Shorthand

/-!
# Sheets

A sheet is the CSS that a document stands for, block by block: for every style rule its own block,
then its nested blocks in the order of the source. A block without declarations is left out.
-/

namespace Stylesheet

open Text Token

/-- A block of CSS: declarations for a selector, perhaps only up to a width of the screen. -/
structure Sheet.Rule where
  /-- The greatest width at which the block applies. -/
  width : Option Text := none
  selector : Text
  /-- The declarations, of which there is at least one in a sheet. -/
  declarations : List Declaration
deriving DecidableEq

/-- The blocks of a style sheet, in order. -/
abbrev Sheet := List Sheet.Rule

namespace Sheet

/-- Names that select elements; any other bare name selects a class. -/
def elements : List Text :=
  List.map String.toList
    ["button", "input", "a", "p", "h1", "h2", "h3", "h4", "h5", "h6", "div", "span", "nav",
     "header", "footer", "main", "section", "article", "aside", "ul", "ol", "li", "table", "form",
     "img", "body", "html", "textarea", "select", "label", "fieldset", "legend", "hr", "br", "pre",
     "code", "blockquote"]

/-- The CSS selector of a style rule: a bare name that is no element is a class. -/
def formatSelector (selector : Text) : Text :=
  if selector.contains '[' || leads "." selector || leads "#" selector || elements.contains selector
  then selector
  else "." ++ selector

def renderBlock (indent selector : Text) (declarations : List Declaration) : Text :=
  indent ++ selector ++ " \x7b\n" ++
    join "\n" (declarations.map fun d => indent ++ "  " ++ d.render) ++ "\n" ++ indent ++ "\x7d"

def Rule.render (r : Rule) : Text :=
  match r.width with
  | none => renderBlock [] r.selector r.declarations
  | some width =>
    "@media (max-width: " ++ width ++ ") \x7b\n" ++ renderBlock "  " r.selector r.declarations ++
      "\n\x7d"

/-- The text of a sheet: its blocks with an empty line between neighbours, and one line feed. -/
def render (s : Sheet) : Text :=
  trim (join "\n\n" (s.map Rule.render)) ++ "\n"

/-- The declarations of property lines, once components are put in place. -/
def declarations (tables : Tables) (components : Table Block) (lines : List Text) :
    Except Misfit (List Declaration) := do
  let found ← (Component.expand components [] lines).mapM (Shorthand.expand tables)
  return (found.map (·.getD [])).flatten

/-- A block, unless it has no declarations. -/
def block (width : Option Text) (selector : Text) : List Declaration → Sheet
  | [] => []
  | declarations => [{ width, selector, declarations }]

/-- The block that a nested block of a style rule becomes. -/
def ofNested (tables : Tables) (components : Table Block) (selector : Text) :
    Text × List Text → Except Misfit Sheet
  | ('@' :: name, lines) => do
    return block (some (tables.show "breakpoints" name)) selector
      (← declarations tables components lines)
  | (name, lines) => do
    return block none (selector ++ ":" ++ name) (← declarations tables components lines)

def ofStyle (tables : Tables) (components : Table Block) (style : Text × Block) :
    Except Misfit Sheet := do
  let selector := formatSelector style.1
  let own := block none selector (← declarations tables components style.2.props)
  let nested ← style.2.nested.entries.mapM (ofNested tables components selector)
  return own ++ nested.flatten

/-- The tables that a document is compiled with: its own over the given ones over the built-in. -/
def tables (overrides : Option Tables) (d : Document) : Tables :=
  .ofLayers [overrides, some (.ofTexts d.tokens)]

def ofDocument (overrides : Option Tables) (d : Document) : Except Misfit Sheet := do
  return (← d.styles.entries.mapM (ofStyle (tables overrides d) d.components)).flatten

end Sheet

end Stylesheet
