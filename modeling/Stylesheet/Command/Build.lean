import Stylesheet.Command.Options
import Stylesheet.Compile
import Stylesheet.Import.Inclusion
import Stylesheet.Token.Overrides

/-!
# Builds

A build compiles the input into the output file and says so. If the input cannot be read the build
fails, which is reported and not fatal; imports that cannot be read are reported, and the rest is
compiled.
-/

namespace Stylesheet.Command

open Text

inductive Line where
  | out (text : Text)
  | err (text : Text)
deriving DecidableEq

/-- A fault that a command does not report but dies of. -/
inductive Breakdown where
  | unreadable (failure : Import.Failure)
  | misfit (m : Token.Misfit)
  | file (fault : FileFault)
  | tokens (path : Path) (problem : Token.FileProblem)
  /-- No file can have the name. -/
  | unusableName
  /-- A path without a name was to get an ending. -/
  | missingName
  | pause (fault : PauseFault)
deriving DecidableEq

def Breakdown.message : Breakdown → Text
  | unreadable failure => failure.message
  | misfit m => "a text is needed in place of " ++ (Token.Value.parts m.parts).render
  | file fault => fault.message
  | tokens path problem => problem.message path
  | unusableName => "a file name holds a null character"
  | missingName => "the input has no name"
  | pause fault => fault.message

structure Job where
  options : Options
  /-- The directory in which the command was called. -/
  directory : Location
  /-- Tokens from a file. -/
  overrides : Option Token.Tables
  output : Path

/-- What a part of a command did. -/
structure Attempt (α : Type) where
  files : FileSystem
  lines : List Line
  result : Except Breakdown α

/-- A note for someone who follows the work in detail. -/
def note (o : Options) (text : Text) : List Line :=
  if o.isVerbose then [.err ("DEBUG " ++ text)] else []

def importNotes (o : Options) (notes : List Text) : List Line :=
  notes.flatMap fun text => note o ("tomato.imports: " ++ text)

def compileNote (o : Options) (c : Compiled) : List Line :=
  note o ("tomato.compiler: emitted " ++ ofNat c.blocks ++ " CSS blocks for " ++ ofNat c.selectors ++
    " selectors")

namespace Job

def root (j : Job) : Location :=
  j.options.input.locate j.directory

def settings (j : Job) : Settings where
  isScoped := j.options.isScoped
  scopeId := j.options.scopeId
  overrides := j.overrides

def product (j : Job) (c : Compiled) : Text :=
  if j.options.isScoped then c.scopedCss else c.css

/-- Refuses a path that no file can have. -/
def usable (p : Path) : Except Breakdown Unit :=
  if p.hasNul then .error .unusableName
  else if FileSystem.isTooLong p.render then .error (.file .nameTooLong)
  else .ok ()

/-- Writes the output file, in directories that are made if they are missing. -/
def write (j : Job) (fs : FileSystem) (text : Text) : Except Breakdown FileSystem := do
  let start := FileSystem.start j.directory j.output
  usable j.output.parent
  let fs ← (fs.makeDirectories start j.output.parent.names).mapError .file
  usable j.output
  (fs.writeText start j.output.names text).mapError .file

/-- Compiles the input into the output file. The result says whether it was written. -/
def build (j : Job) (fs : FileSystem) : Attempt Bool :=
  if j.options.input.hasNul then { files := fs, lines := [], result := .error .unusableName }
  else
    let account := Import.Account.ofFile fs j.root
    let lines := importNotes j.options account.notes
    match account.source with
    | .error .unusableName => { files := fs, lines, result := .error .unusableName }
    | .error failure =>
      { files := fs
        lines := lines ++ [.err ("Error in " ++ j.options.input.name ++ ": " ++ failure.message)]
        result := .ok false }
    | .ok source =>
      match compile j.settings source with
      | .error m => { files := fs, lines, result := .error (.misfit m) }
      | .ok c =>
        let lines := lines ++ compileNote j.options c ++
          account.errors.map fun e => .err ("Error: " ++ e)
        match j.write fs (j.product c) with
        | .error b => { files := fs, lines, result := .error b }
        | .ok files =>
          { files
            lines := lines ++
              [.out ("Compiled: " ++ j.options.input.name ++ " -> " ++ j.output.name)]
            result := .ok true }

end Job

end Stylesheet.Command
