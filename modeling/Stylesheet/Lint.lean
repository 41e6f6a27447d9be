import Stylesheet.Diagnostic
import Stylesheet.Document
import Stylesheet.Import.Statement
import Stylesheet.Shorthand
import Stylesheet.Similarity
import Stylesheet.Source.Reader

/-!
# Linting

Reading and compiling drop what they do not understand without a word; linting reports it. A line is
judged in the context in which the reader meets it, with the components and tokens of the whole source.
-/

namespace Stylesheet

namespace Lint

open Text Token Source

/-- Whether a line looks like a selector that lacks its colon. -/
def isBareName (content : Text) : Bool :=
  let body := match content with
    | '.' :: rest => rest
    | '#' :: rest => rest
    | rest => rest
  match body with
  | c :: rest => c.isAlpha && rest.all isNameChar
  | [] => false

/-- The name in a line that looks like the header of a nested block. -/
def blockName? (content : Text) : Option Text :=
  (beforeColon? content).filter fun name =>
    match name with
    | '@' :: rest => !rest.isEmpty && rest.all isNameChar
    | rest => !rest.isEmpty && rest.all isNameChar

/-- Whole lines that some shorthand accepts. -/
def keywordLines : List Text :=
  Shorthand.all.flatMap (·.keywords)

/-- What is wrong with a line at the left margin. -/
def checkRoot (content : Text) : List Finding :=
  if (header? content).isSome || Import.isStatement content then []
  else if isBareName content then [.missingColon content]
  else [.unknownRoot content]

/-- The words of a property line that name a hue of the palette in a shade which neither the palette
nor the token tables have. -/
def checkShades (tables : Tables) (content : Text) : List Finding :=
  (Color.pieces content).filterMap fun piece =>
    match piece with
    | .word w =>
      match Color.shade? w with
      | some (hue, shade) =>
        if (palette.map Prod.fst).contains hue && !shades.contains shade &&
            (tables.find? "colors" w).isNone
        then some (.invalidShade hue shade)
        else none
      | none => none
    | .separator _ => none

def checkProperty (document : Document) (tables : Tables) (content : Text) :
    Except Misfit (List Finding) :=
  match Component.reference? content with
  | some name =>
    if document.components.contains name then .ok []
    else .ok [.unknownComponent name (Similarity.closest? name document.components.keys)]
  | none => do
    let unknown := match ← Shorthand.expand tables content with
      | some _ => []
      | none => [.unknownProperty content (Similarity.closest? content keywordLines)]
    return checkShades tables content ++ unknown

/-- What is wrong with an indented line in a context. -/
def checkContent (document : Document) (tables : Tables) (ctx : Context) (content : Text) :
    Except Misfit (List Finding) :=
  if !ctx.hasTarget then .ok [.orphanLine content]
  else if (nestedHeader? content).isSome then .ok []
  else
    match blockName? content with
    | some name => .ok [.unknownBlock name (Similarity.closest? name nestedBlocks)]
    | none =>
      if ctx.state = some .tokens then
        .ok (if (tokenValue? content).isSome then [] else [.badToken content])
      else checkProperty document tables content

def checkLine (document : Document) (tables : Tables) (ctx : Context) (line : Text) :
    Except Misfit (List Finding) :=
  let content := trim line
  if content.isEmpty || isComment content (indentation line) then .ok []
  else if indentation line = 0 then .ok (checkRoot content)
  else checkContent document tables ctx content

/-- What is wrong with lines from number `n` on, which the reader `r` is about to read. -/
def checkLines (document : Document) (tables : Tables) :
    (n : Nat) → (r : Reader) → List Text → Except Misfit (List Diagnostic)
  | _, _, [] => .ok []
  | n, r, line :: rest => do
    let here ← checkLine document tables r.context line
    let later ← checkLines document tables (n + 1) (r.step line) rest
    return here.map (⟨n, ·⟩) ++ later

end Lint

/-- What is wrong with a source, in the order of its lines. -/
def lint (source : Text) : Except Token.Misfit (List Diagnostic) :=
  let document := Source.parse source
  let tables := Token.Tables.ofLayers [some (.ofTexts document.tokens)]
  Lint.checkLines document tables 1 {} (Source.lines source)

end Stylesheet
