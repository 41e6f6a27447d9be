import Stylesheet.Color

/-!
# Shorthands

A property line is written in shorthand. Once its colors are in place, the first shorthand of
`Shorthand.all` that accepts it says which declarations it stands for. The order matters: the last one
takes any line with a space, so it must come after the more particular ones.
-/

namespace Stylesheet

open Text Token

structure Declaration where
  property : Text
  value : Text
deriving DecidableEq

def Declaration.render (d : Declaration) : Text :=
  d.property ++ ": " ++ d.value ++ ";"

/-- A way to write declarations in one line. -/
structure Shorthand where
  name : Text
  accepts : Text → Bool
  /-- The declarations that an accepted line stands for. -/
  declare : Tables → Text → Except Misfit (List Declaration)
  /-- Whole lines that it accepts by themselves. -/
  keywords : List Text := []

namespace Shorthand

/-- What follows a word and the character after it. -/
def after (word line : Text) : Text :=
  line.drop (word.length + 1)

/-- What stands before the first space of a line. -/
def front (line : Text) : Text :=
  line.takeWhile (· != ' ')

/-- What stands behind the first space of a line. -/
def rest (line : Text) : Text :=
  (line.dropWhile (· != ' ')).drop 1

/-- A size token's value, or the size as it is written. -/
def size (tables : Tables) (value : Text) : Text :=
  tables.show "sizes" value

/-- Sizes separated by single spaces, each resolved; every one must be a text. -/
def sizes (tables : Tables) (values : Text) : Except Misfit Text := do
  return join " " (← (split ' ' values).mapM (tables.textOf "sizes"))

/-- A word with a value behind it, which is written with `before` and `behind` around it. -/
def valueOf (name word property : Text) (before behind : Text := []) : Shorthand where
  name := name
  accepts := leads (word ++ " ")
  declare _ line := .ok [⟨property, before ++ after word line ++ behind⟩]

/-- A word with a size behind it. -/
def sized (name word property : Text) : Shorthand where
  name := name
  accepts := leads (word ++ " ")
  declare tables line := .ok [⟨property, size tables (after word line)⟩]

/-- One of some words with sizes behind it. -/
def spaced (name : Text) (words : List Text) (property : Text) : Shorthand where
  name := name
  accepts line := words.any fun word => leads (word ++ " ") line
  declare tables line := do
    return [⟨property, ← sizes tables (rest line)⟩]

/-- A word by itself, which takes a usual value, or with the name of a token behind it. -/
def scaled (name word category property usual : Text) : Shorthand where
  name := name
  accepts line := line == word || leads (word ++ " ") line
  declare tables line :=
    let value := if line = word then usual else after word line
    .ok [⟨property, tables.show category value⟩]
  keywords := [word]

/-- Whole lines, each with its declarations. -/
def fixed (name : Text) (table : List (Text × List Declaration)) : Shorthand where
  name := name
  accepts line := (table.lookup line).isSome
  declare _ line := .ok ((table.lookup line).getD [])
  keywords := table.map Prod.fst

/-- The value of `bg`: a gradient between two colors, or any background. -/
def background (value : Text) : Text :=
  match (dropLead? "gradient " value).bind (cutAt? " to ") with
  | some (first, second) =>
    if occurs " to " second then value
    else "linear-gradient(135deg, " ++ first ++ ", " ++ second ++ ")"
  | none => value

/-- The declarations of `size`: a font size, with its line height if the token is a pair. -/
def fontSize (tables : Tables) (name : Text) : List Declaration :=
  match tables.lookup "fontSize" name with
  | some (.parts [size, height]) => [⟨"font-size", size⟩, ⟨"line-height", height⟩]
  | some value => [⟨"font-size", value.render⟩]
  | none => [⟨"font-size", name⟩]

/-- Properties that take a size and are written in full. -/
def geometryWords : List Text :=
  ["width", "height", "max-width", "min-width", "max-height", "min-height",
   "top", "right", "bottom", "left"]

/-- Whether a line starts with one of the properties in full and a blank. -/
def isGeometry (line : Text) : Bool :=
  geometryWords.any fun word =>
    match dropLead? word line with
    | some (c :: _) => isBlank c
    | _ => false

def flexRow : List Declaration := [⟨"display", "flex"⟩, ⟨"flex-direction", "row"⟩]

def flexColumn : List Declaration := [⟨"display", "flex"⟩, ⟨"flex-direction", "column"⟩]

/-- A property in full with a size behind it. -/
def geometry : Shorthand where
  name := "geometry"
  accepts := isGeometry
  declare tables line := .ok [⟨front line, size tables (rest line)⟩]

theorem geometry_declare (tables : Tables) (line : Text) :
    geometry.declare tables line = .ok [⟨front line, size tables (rest line)⟩] := rfl

/-- Any property in full with its value behind it. -/
def passthrough : Shorthand where
  name := "passthrough"
  accepts line := line.contains ' '
  declare _ line := .ok [⟨front line, rest line⟩]

/-- Every shorthand, in the order in which they are tried. -/
def all : List Shorthand :=
  [{ name := "background"
     accepts := leads "bg "
     declare _ line := .ok [⟨"background", background (after "bg" line)⟩] },
   valueOf "color" "color" "color",
   valueOf "text-color" "text" "color",
   spaced "padding" ["pad"] "padding",
   spaced "margin" ["margin", "m"] "margin",
   scaled "radius" "round" "radius" "border-radius" "lg",
   scaled "shadow" "shadow" "shadows" "box-shadow" "md",
   fixed "negations"
    [("no border", [⟨"border", "none"⟩]),
     ("no shadow", [⟨"box-shadow", "none"⟩]),
     ("no outline", [⟨"outline", "none"⟩])],
   valueOf "border" "border" "border",
   fixed "cursor" [("pointer", [⟨"cursor", "pointer"⟩]), ("clickable", [⟨"cursor", "pointer"⟩])],
   fixed "smooth" [("smooth", [⟨"transition", "all 0.2s ease"⟩])],
   valueOf "transition" "transition" "transition" "all " " ease",
   valueOf "opacity" "opacity" "opacity",
   fixed "text-decoration"
    [("no underline", [⟨"text-decoration", "none"⟩]),
     ("underline", [⟨"text-decoration", "underline"⟩]),
     ("line-through", [⟨"text-decoration", "line-through"⟩])],
   fixed "text-transform"
    [("uppercase", [⟨"text-transform", "uppercase"⟩]),
     ("lowercase", [⟨"text-transform", "lowercase"⟩]),
     ("capitalize", [⟨"text-transform", "capitalize"⟩])],
   fixed "font-weight"
    [("bold", [⟨"font-weight", "bold"⟩]),
     ("semibold", [⟨"font-weight", "600"⟩]),
     ("light", [⟨"font-weight", "300"⟩]),
     ("normal", [⟨"font-weight", "normal"⟩])],
   { name := "font-size"
     accepts := leads "size "
     declare tables line := .ok (fontSize tables (after "size" line)) },
   fixed "flex"
    [("row", flexRow),
     ("row spread", flexRow ++ [⟨"justify-content", "space-between"⟩]),
     ("row center", flexRow ++ [⟨"justify-content", "center"⟩]),
     ("row end", flexRow ++ [⟨"justify-content", "flex-end"⟩]),
     ("column", flexColumn),
     ("column center", flexColumn ++ [⟨"align-items", "center"⟩]),
     ("wrap", [⟨"flex-wrap", "wrap"⟩])],
   fixed "centering"
    [("center", [⟨"text-align", "center"⟩]),
     ("center all",
      [⟨"display", "flex"⟩, ⟨"justify-content", "center"⟩, ⟨"align-items", "center"⟩]),
     ("align center", [⟨"align-items", "center"⟩]),
     ("justify center", [⟨"justify-content", "center"⟩])],
   { name := "grid"
     accepts := leads "grid "
     declare _ line := .ok
      [⟨"display", "grid"⟩,
       ⟨"grid-template-columns", "repeat(" ++ after "grid" line ++ ", 1fr)"⟩] },
   sized "gap" "gap" "gap",
   sized "width" "w" "width",
   sized "height" "h" "height",
   fixed "full-size"
    [("w-full", [⟨"width", "100%"⟩]),
     ("h-full", [⟨"height", "100%"⟩]),
     ("w-screen", [⟨"width", "100vw"⟩]),
     ("h-screen", [⟨"height", "100vh"⟩])],
   fixed "position"
    [("relative", [⟨"position", "relative"⟩]),
     ("absolute", [⟨"position", "absolute"⟩]),
     ("fixed", [⟨"position", "fixed"⟩]),
     ("sticky", [⟨"position", "sticky"⟩])],
   valueOf "z-index" "z" "z-index",
   fixed "overflow"
    [("overflow hidden", [⟨"overflow", "hidden"⟩]),
     ("overflow scroll", [⟨"overflow", "scroll"⟩]),
     ("overflow auto", [⟨"overflow", "auto"⟩])],
   fixed "display"
    [("block", [⟨"display", "block"⟩]),
     ("inline", [⟨"display", "inline"⟩]),
     ("inline-block", [⟨"display", "inline-block"⟩]),
     ("hidden", [⟨"display", "none"⟩]),
     ("invisible", [⟨"visibility", "hidden"⟩])],
   geometry,
   passthrough]

/-- The first shorthand that accepts a line whose colors are in place. -/
def find? (line : Text) : Option Shorthand :=
  all.find? (·.accepts line)

/-- The declarations that a property line stands for, if some shorthand accepts it. -/
def expand (tables : Tables) (line : Text) : Except Misfit (Option (List Declaration)) := do
  let line ← Color.resolve tables line
  match find? line with
  | some shorthand => return some (← shorthand.declare tables line)
  | none => return none

end Shorthand

end Stylesheet
