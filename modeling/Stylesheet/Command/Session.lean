import Stylesheet.Command.Watch
import Stylesheet.Lint

/-!
# Sessions

A session is one call of the command. It ends at once when it compiles or checks a file; when it
watches, it pauses again and again, and others may change files in every pause.
-/

namespace Stylesheet.Command

open Text

inductive Ending where
  | exit (code : Nat)
  | breakdown (b : Breakdown)
deriving DecidableEq

/-- What follows after the beginning of a session. -/
inductive Next where
  | ended (ending : Ending)
  | watching (w : Watch)

/-- The beginning of a session, up to its end or its first pause. -/
structure Opening where
  files : FileSystem
  lines : List Line
  next : Next

def usage : List Text :=
  ["usage: tomato [-h] [-o OUTPUT] [--scoped] [--scope-id SCOPE_ID]",
   "              [--tokens TOKENS] [-w] [--interval INTERVAL] [--lint] [-v]",
   "              input"]

/-- What the command does and what its switches ask for. -/
def help : List Text :=
  usage ++ (["",
   "Compile Tomato (.tom) stylesheets to CSS",
   "",
   "positional arguments:",
   "  input                 Input .tom file",
   "",
   "options:",
   "  -h, --help            show this help message and exit",
   "  -o OUTPUT, --output OUTPUT",
   "                        Output .css file (default: <input>.css)",
   "  --scoped              Write scoped CSS",
   "  --scope-id SCOPE_ID   Scope id for --scoped (default: derived from source)",
   "  --tokens TOKENS       YAML file of token overrides",
   "  -w, --watch           Recompile when files change",
   "  --interval INTERVAL   Watch polling interval in seconds",
   "  --lint                Report diagnostics instead of compiling",
   "  -v, --verbose         Debug logging"] : List Text)

/-- The problem of a token file in words, if it is one that is reported. -/
def tokenReport? (path : Path) (problem : Token.FileProblem) : Option Text :=
  match problem with
  | .unreadable (.file fault) =>
    some ("[Errno " ++ ofNat fault.number ++ "] " ++ fault.message ++ ": " ++ quote path.render)
  | .invalid .malformed | .notMapping | .notTable _ => some (problem.message path)
  | .unusableName | .unreadable (.encoding _) | .invalid _ | .untold => none

/-- Checks the input. An error makes the command fail, a warning does not. -/
def lintFile (fs : FileSystem) (directory : Location) (o : Options) : List Line × Ending :=
  if o.input.hasNul then ([], .breakdown .unusableName)
  else
    let account := Import.Account.ofFile fs (o.input.locate directory)
    let lines := importNotes o account.notes
    match account.source with
    | .error .unusableName => (lines, .breakdown .unusableName)
    | .error failure => (lines ++ [.err ("Error: " ++ failure.message)], .exit 1)
    | .ok source =>
      match lint source with
      | .error m => (lines, .breakdown (.misfit m))
      | .ok diagnostics =>
        (lines ++ diagnostics.map fun d => .out (o.input.render ++ ":" ++ d.render),
         .exit (if diagnostics.any (·.finding.severity == .error) then 1 else 0))

/-- Whether the input is there. That cannot be told of a name that is too long, or in a directory that
may not be entered. -/
def inputExists (fs : FileSystem) (directory : Location) (o : Options) : Except Breakdown Bool :=
  match fs.find directory o.input with
  | .ok _ => .ok true
  | .error .nameTooLong => .error (.file .nameTooLong)
  | .error .denied => .error (.file .denied)
  | .error _ => .ok false

/-- Builds once, and begins to watch if that is asked for. A failed build ends a session only if the
input is not there at all. -/
def buildAndWatch (fs : FileSystem) (j : Job) : Opening :=
  let built := j.build fs
  let stop (ending : Ending) : Opening :=
    { files := built.files, lines := built.lines, next := .ended ending }
  match built.result with
  | .error b => stop (.breakdown b)
  | .ok isBuilt =>
    if !j.options.watches then stop (.exit (if isBuilt then 0 else 1))
    else
      match if isBuilt then .ok true else inputExists built.files j.directory j.options with
      | .error b => stop (.breakdown b)
      | .ok false => stop (.exit 1)
      | .ok true =>
        match Watch.begin j built.files with
        | .error b => stop (.breakdown b)
        | .ok (lines, w) =>
          { files := built.files, lines := built.lines ++ lines, next := .watching w }

/-- Does what options ask for, with tokens that have been read. -/
def perform (fs : FileSystem) (directory : Location) (o : Options)
    (overrides : Option Token.Tables) : Opening :=
  if o.lints then
    let (lines, ending) := lintFile fs directory o
    { files := fs, lines, next := .ended ending }
  else
    match o.output <|> o.input.withEnding? ".css" with
    | none => { files := fs, lines := [], next := .ended (.breakdown .missingName) }
    | some output => buildAndWatch fs { options := o, directory, overrides, output }

/-- Reads the token file that options name, and does what they ask for. -/
def obey (load : Token.Loader) (fs : FileSystem) (directory : Location) (o : Options) : Opening :=
  match o.tokens with
  | none => perform fs directory o none
  | some path =>
    match Token.Tables.ofFile load fs directory path with
    | .ok overrides => perform fs directory o (some overrides)
    | .error problem =>
      match tokenReport? path problem with
      | some text =>
        { files := fs, lines := [.err ("Error: cannot load tokens: " ++ text)]
          next := .ended (.exit 1) }
      | none => { files := fs, lines := [], next := .ended (.breakdown (.tokens path problem)) }

/-- Begins a session with the arguments of the command. -/
def Opening.ofArguments (load : Token.Loader) (fs : FileSystem) (directory : Location)
    (arguments : List Text) : Opening :=
  match Options.ofArguments arguments with
  | .error .help => { files := fs, lines := help.map .out, next := .ended (.exit 0) }
  | .error (.misuse m) =>
    { files := fs, lines := usage.map .err ++ [.err ("tomato: error: " ++ m.message)]
      next := .ended (.exit 2) }
  | .ok o => obey load fs directory o

/-- A part of a session that nobody else interrupts: from the beginning or a pause up to the next pause
or the end. -/
structure Stretch where
  before : FileSystem
  after : FileSystem
  lines : List Line
  /-- The length of the pause that follows, unless the session ends. -/
  pause : Option Pause

structure Session where
  stretches : List Stretch
  ending : Ending

def stopped : Line := .out "Stopped watching"

/-- What a session needs from its surroundings. -/
structure Host where
  load : Token.Loader
  /-- What keeps a pause from being made. -/
  hindrance? : Pause → Option PauseFault

/-- Goes on with a watch, where `current` is the stretch before its pause. If the pause can be made,
others change files in it; after the last change the watch is interrupted. -/
def Watch.run (host : Host) (w : Watch) (current : Stretch)
    (changes : List (FileSystem → FileSystem)) : Session :=
  match host.hindrance? w.job.options.interval with
  | some fault => { stretches := [{ current with pause := none }], ending := .breakdown (.pause fault) }
  | none =>
    match changes with
    | [] =>
      { stretches :=
          [current, { before := current.after, after := current.after, lines := [stopped], pause := none }]
        ending := .exit 0 }
    | change :: changes =>
      let before := change current.after
      let looked := w.poll before
      let stretch : Stretch :=
        { before, after := looked.files, lines := looked.lines, pause := none }
      match looked.result with
      | .error b => { stretches := [current, stretch], ending := .breakdown b }
      | .ok w =>
        let rest := w.run host { stretch with pause := some w.job.options.interval } changes
        { rest with stretches := current :: rest.stretches }

/-- A whole session, in which others change files in each pause. -/
def Session.run (host : Host) (fs : FileSystem) (directory : Location) (arguments : List Text)
    (changes : List (FileSystem → FileSystem)) : Session :=
  let opening := Opening.ofArguments host.load fs directory arguments
  let stretch : Stretch :=
    { before := fs, after := opening.files, lines := opening.lines, pause := none }
  match opening.next with
  | .ended ending => { stretches := [stretch], ending }
  | .watching w => w.run host { stretch with pause := some w.job.options.interval } changes

end Stylesheet.Command
