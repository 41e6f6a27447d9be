import Stylesheet.Color
import Stylesheet.Command.Build
import Stylesheet.Command.Options
import Stylesheet.Command.Session
import Stylesheet.Command.Switch
import Stylesheet.Command.Watch
import Stylesheet.Compile
import Stylesheet.Css.Lexeme
import Stylesheet.Css.Scope
import Stylesheet.Css.Selectors
import Stylesheet.Decimal.Binary
import Stylesheet.Decimal.Layout
import Stylesheet.Decimal.Read
import Stylesheet.Decimal.Shortest
import Stylesheet.Diagnostic
import Stylesheet.Document
import Stylesheet.FileSystem
import Stylesheet.Import.Inclusion
import Stylesheet.Import.Reach
import Stylesheet.Import.Statement
import Stylesheet.Import.Target
import Stylesheet.Lint
import Stylesheet.Main
import Stylesheet.Path
import Stylesheet.Remaining
import Stylesheet.ScopeId
import Stylesheet.Sheet
import Stylesheet.Shorthand
import Stylesheet.Similarity
import Stylesheet.Source.Line
import Stylesheet.Source.Reader
import Stylesheet.Table
import Stylesheet.Text.Basic
import Stylesheet.Text.Class
import Stylesheet.Text.Printable
import Stylesheet.Text.Quoted
import Stylesheet.Token.Defaults
import Stylesheet.Token.Loader
import Stylesheet.Token.Overrides
import Stylesheet.Token.Tables
import Stylesheet.Token.Value
import Stylesheet.Utf8
import Stylesheet.Yaml.Bytes
import Stylesheet.Yaml.Cursor
import Stylesheet.Yaml.Node
import Stylesheet.Yaml.Number
import Stylesheet.Yaml.Source
import Stylesheet.Yaml.Tag
import Stylesheet.Yaml.Time
import Stylesheet.Yaml.Token
import Stylesheet.Yaml.Token.Lexer
import Stylesheet.Yaml.Token.Scalar
import Stylesheet.Yaml.Value
import Stylesheet.Yaml.Value.Slots
import Stylesheet.Yaml.Value.Text
import Stylesheet.Proofs.Lexing
import Stylesheet.Proofs.Scoping
import Stylesheet.Proofs.StyleTree
import Stylesheet.Proofs.Sections
import Stylesheet.Proofs.TextTokens
import Stylesheet.Proofs.SelectorShape
import Stylesheet.Proofs.ScopedSheet
import Stylesheet.Proofs.ImportGraph
import Stylesheet.Proofs.OpenConstructs
import Stylesheet.Proofs.DroppedLines
import Stylesheet.Proofs.FileWrites
import Stylesheet.Proofs.ImportLocality
import Stylesheet.Proofs.FreshOutput
import Stylesheet.Proofs.Openings
import Stylesheet.Proofs.OverlookedLines
import Stylesheet.Proofs.RevivedImports
import Stylesheet.Proofs.DocumentMerge
import Stylesheet.Proofs.LineSeams
import Stylesheet.Proofs.SectionOrder
import Stylesheet.Proofs.ImportedDocument
import Stylesheet.Proofs.ComponentGraph
import Stylesheet.Proofs.InlinedComponents
import Stylesheet.Proofs.ImportCycles
import Stylesheet.Proofs.ScopeMarks
import Stylesheet.Proofs.CycleFreeComponents
import Stylesheet.Proofs.ColorWords
import Stylesheet.Proofs.ColorOrder
import Stylesheet.Proofs.MeantProperties
import Stylesheet.Proofs.TokenLayers
import Stylesheet.Proofs.DocumentShape
import Stylesheet.Proofs.WrittenDocument
import Stylesheet.Proofs.CompleteDeclarations
import Stylesheet.Proofs.ShadeReferences
import Stylesheet.Proofs.ResolvedLines
import Stylesheet.Proofs.ScopeNumerals
import Stylesheet.Proofs.SelectorCuts
import Stylesheet.Proofs.StringEnds
import Stylesheet.Proofs.TokenFiles
import Stylesheet.Proofs.UnreadableFiles
