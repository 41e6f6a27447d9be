import Stylesheet.Document
import Stylesheet.Source.Line

/-!
# Reading a source

A source is read line by line. The reader keeps a context, which says what construct a line belongs
to, and the document read so far. No line is an error: one that fits nowhere is dropped.
-/

namespace Stylesheet.Source

open Text

/-- The constructs that are open at a line. -/
structure Context where
  /-- The kind of construct that lines belong to. -/
  state : Option Section := none
  category : Option Text := none
  component : Option Text := none
  selector : Option Text := none
  /-- The open nested block of the component or style rule. -/
  nested : Option Text := none
deriving DecidableEq

/-- Whether a line of content has a construct to go to. -/
def Context.hasTarget (ctx : Context) : Bool :=
  match ctx.state with
  | some .tokens => ctx.category.isSome
  | some .components => ctx.component.isSome
  | some .styles => ctx.selector.isSome
  | none => false

/-- The context after a comment. An announced kind closes the constructs of the other kinds. -/
def Context.announce (ctx : Context) : Option Section → Context
  | some .components => { ctx with state := some .components, category := none, selector := none }
  | some .styles => { ctx with state := some .styles, category := none, component := none }
  | some .tokens => { ctx with state := some .tokens, selector := none, component := none }
  | none => ctx

def Header.context : Header → Context
  | .tokens category => { state := some .tokens, category := some category }
  | .component name => { state := some .components, component := some name }
  | .style selector => { state := some .styles, selector := some selector }

structure Reader where
  context : Context := {}
  document : Document := {}
deriving DecidableEq

namespace Reader

def openRoot (r : Reader) (header : Header) : Reader where
  context := header.context
  document :=
    match header with
    | .tokens category => r.document.openCategory category
    | .component name => r.document.openComponent name
    | .style selector => r.document.openStyle selector

/-- Opens a nested block of the open component or style rule. -/
def openNested (r : Reader) (name : Text) : Reader :=
  match r.context.state, r.context.component, r.context.selector with
  | some .components, some component, _ =>
    { context := { r.context with nested := some name }
      document := r.document.modifyComponent component (·.openNested name) }
  | _, _, some selector =>
    { context := { r.context with nested := some name }
      document := r.document.modifyStyle selector (·.openNested name) }
  | _, _, none => r

/-- Adds a property line to a block, in the nested block if one is open. -/
def addLine (nested : Option Text) (content : Text) (b : Block) : Block :=
  match nested with
  | some name => b.addNested name content
  | none => b.addProp content

def addContent (r : Reader) (content : Text) : Reader :=
  match r.context.state with
  | some .tokens =>
    match r.context.category, tokenValue? content with
    | some category, some (name, value) =>
      { r with document := r.document.setToken category name value }
    | _, _ => r
  | some .components =>
    match r.context.component with
    | some component =>
      { r with document := r.document.modifyComponent component (addLine r.context.nested content) }
    | none => r
  | some .styles =>
    match r.context.selector with
    | some selector =>
      { r with document := r.document.modifyStyle selector (addLine r.context.nested content) }
    | none => r
  | none => r

def step (r : Reader) (line : Text) : Reader :=
  let content := trim line
  if content.isEmpty then r
  else if isComment content (indentation line) then
    { r with context := r.context.announce (announced? content) }
  else if indentation line = 0 then
    match header? content with
    | some header => r.openRoot header
    | none => r
  else
    match nestedHeader? content with
    | some name => r.openNested name
    | none => r.addContent content

def run (r : Reader) (lines : List Text) : Reader :=
  lines.foldl step r

theorem run_append (r : Reader) (front back : List Text) :
    r.run (front ++ back) = (r.run front).run back :=
  List.foldl_append

end Reader

def lines (source : Text) : List Text :=
  split '\n' source

def parse (source : Text) : Document :=
  (Reader.run {} (lines source)).document

end Stylesheet.Source
