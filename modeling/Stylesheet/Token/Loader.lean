import Stylesheet.Utf8

/-!
# Loaders

A loader makes a document of the bytes of a token file. Only so much of a document is of interest:
whether it is a mapping, whether what it maps categories to are mappings, and which texts its names and
values count as. How documents are written is left to the loader.
-/

namespace Stylesheet.Token

/-- Why a loader makes no document of some bytes. -/
inductive LoadFault where
  /-- The text is no document, or none that stands for plain data. -/
  | malformed
  /-- The bytes are no text. -/
  | undecodable (fault : Utf8.Fault)
  /-- A number, a date or a character that does not exist is written. -/
  | noSuchValue
  /-- A number is written that is too large for its purpose. -/
  | tooLarge
  /-- A text said to be a truth value is none of the words for one. -/
  | unknownWord
  /-- A text said to be a number is empty. -/
  | emptyNumber
  /-- A text said to be a time is none. -/
  | notTime
  /-- A mapping stands for a text where only a text will do. -/
  | notScalar
deriving DecidableEq

/-- What a value counts as, if it has a text. -/
abbrev Shown := Option Text

/-- A value in a table of a document. -/
inductive Item where
  | sequence (parts : List Shown)
  | other (text : Shown)

/-- What a document maps a category to. -/
inductive Filing where
  | table (entries : List (Shown × Item))
  | other

inductive Content where
  /-- The document is empty, or says that it has no value. -/
  | nothing
  | mapping (categories : List (Shown × Filing))
  | other

/-- A way to make documents of bytes. -/
abbrev Loader := List UInt8 → Except LoadFault Content

end Stylesheet.Token
