import Stylesheet.Token.Loader

/-!
# Tokens of YAML

A YAML text is read as tokens, some of which stand for a change of indentation and not for a character
of the text.
-/

namespace Stylesheet.Yaml

abbrev Fault := Stylesheet.Token.LoadFault

/-- A line in front of a document that says how to read it. -/
inductive Directive where
  | version (major : Nat)
  | handle (name stands : Text)
  | other
deriving DecidableEq

inductive Token where
  | directive (d : Directive)
  | documentStart
  | documentEnd
  | blockSequenceStart
  | blockMappingStart
  | blockEnd
  | flowSequenceStart
  | flowSequenceEnd
  | flowMappingStart
  | flowMappingEnd
  | blockEntry
  | flowEntry
  | key
  | value
  | alias (name : Text)
  | anchor (name : Text)
  | tag (handle : Option Text) (suffix : Text)
  | scalar (text : Text) (plain : Bool)
  /-- The text has no token here. -/
  | unreadable (fault : Fault)
deriving DecidableEq

end Stylesheet.Yaml
