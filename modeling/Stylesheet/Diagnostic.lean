import Stylesheet.Text.Basic
import Stylesheet.Token.Defaults

/-!
# Diagnostics

What can be wrong with a line of a source, and how it is said.
-/

namespace Stylesheet

open Text

/-- Something that a line of a source does in vain. The suggestions are names that look like the one
that was written. -/
inductive Finding where
  | missingColon (content : Text)
  | unknownRoot (content : Text)
  | orphanLine (content : Text)
  | unknownBlock (name : Text) (suggestion : Option Text)
  | badToken (content : Text)
  | unknownComponent (name : Text) (suggestion : Option Text)
  | invalidShade (hue shade : Text)
  | unknownProperty (content : Text) (suggestion : Option Text)
deriving DecidableEq

inductive Severity where
  | error
  | warning
deriving DecidableEq, Repr

def Severity.word : Severity → Text
  | error => "error"
  | warning => "warning"

namespace Finding

def severity : Finding → Severity
  | missingColon _ => .error
  | unknownComponent _ _ => .error
  | _ => .warning

/-- The short name of this kind of finding. -/
def code : Finding → Text
  | missingColon _ => "missing-colon"
  | unknownRoot _ => "unknown-root"
  | orphanLine _ => "orphan-line"
  | unknownBlock _ _ => "unknown-block"
  | badToken _ => "bad-token"
  | unknownComponent _ _ => "unknown-component"
  | invalidShade _ _ => "invalid-shade"
  | unknownProperty _ _ => "unknown-property"

/-- The question that offers a suggestion. -/
def question : Option Text → Text
  | some name => " Did you mean '" ++ name ++ "'?"
  | none => []

def message : Finding → Text
  | missingColon content =>
    "Missing colon after selector '" ++ content ++ "'. Did you mean '" ++ content ++ ":'?"
  | unknownRoot content => "Unrecognized line '" ++ content ++ "' is ignored"
  | orphanLine content => "Line '" ++ content ++ "' is outside any block"
  | unknownBlock name suggestion =>
    "Unknown " ++ (if leads "@" name then "media block" else "pseudo-class") ++ " '" ++ name ++
      "' is compiled as a property." ++ question suggestion
  | badToken content => "Token '" ++ content ++ "' has no value"
  | unknownComponent name suggestion =>
    "Component '" ++ name ++ "' is not defined." ++ question suggestion
  | invalidShade hue shade =>
    "Invalid shade '" ++ shade ++ "' for color '" ++ hue ++ "'. Valid shades: " ++
      join ", " Token.shades
  | unknownProperty content suggestion =>
    "Unknown property '" ++ content ++ "' produces no CSS." ++ question suggestion

end Finding

/-- A finding on a line, which is counted from one. -/
structure Diagnostic where
  line : Nat
  finding : Finding
deriving DecidableEq

def Diagnostic.render (d : Diagnostic) : Text :=
  ofNat d.line ++ ": " ++ d.finding.severity.word ++ ": " ++ d.finding.message ++ " [" ++
    d.finding.code ++ "]"

end Stylesheet
