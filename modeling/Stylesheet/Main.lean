import Stylesheet.Command.Session
import Stylesheet.Yaml.Value.Text

/-!
# The command

The outer layer of the program. It copies the files that a session may look at from the disk, lets the
session work on the copy, and writes back what the session changed. A file on the disk counts as changed
when its bytes are others than before.
-/

namespace Stylesheet.Command

/-- Copies what is on the disk at a location, in a directory that has been copied. -/
def fetch (fs : FileSystem) (l : Location) : IO FileSystem := do
  match ← (IO.FS.readBinFile (String.ofList l.render)).toBaseIO with
  | .ok content =>
    let bytes := content.toList
    match fs.entry? l with
    | some (.file old _) => return if old = bytes then fs else fs.putFile l bytes
    | _ => return (fs.delete l).putFile l bytes
  | .error (.inappropriateType ..) =>
    match fs.entry? l with
    | some (.directory _) => return fs
    | _ => return (fs.delete l).putDirectory l
  | .error (.permissionDenied ..) =>
    let fs := (fs.delete l).putFile l []
    return { fs with bans := (l, .read) :: fs.bans }
  | .error _ => return fs.delete l

/-- Copies what is on the way from the root to a location, as far as it goes through directories. -/
def fetchWay (fs : FileSystem) (l : Location) : IO FileSystem := do
  let mut fs := fs
  for n in [1:l.length + 1] do
    match fs.entry? (l.take (n - 1)) with
    | some (.directory _) => fs ← fetch fs (l.take n)
    | _ => return fs
  return fs

/-- Copies all that a path leads through, seen from a directory. -/
def fetchPath (fs : FileSystem) (directory : Location) (p : Path) : IO FileSystem := do
  let mut fs := fs
  let mut l := FileSystem.start directory p
  fs ← fetchWay fs l
  for name in p.names do
    l := l.enter name
    fs ← fetchWay fs l
  return fs

/-- Copies source files and all that they import. -/
partial def fetchSources (fs : FileSystem) (pending seen : List Location) : IO FileSystem := do
  match pending with
  | [] => return fs
  | file :: pending =>
    if seen.contains file then fetchSources fs pending seen
    else
      let fs ← fetchWay fs file
      let targets := match fs.read file with
        | .ok source => Import.targets file source
        | .error _ => []
      fetchSources fs (targets ++ pending) (file :: seen)

/-- Copies all that options let a session look at. -/
def fetchFor (fs : FileSystem) (directory : Location) (o : Options) : IO FileSystem := do
  let paths := [some o.input, o.tokens, o.output <|> o.input.withEnding? ".css"].filterMap id
  let mut fs ← fetchWay fs directory
  for path in paths.filter (!·.hasNul) do
    fs ← fetchPath fs directory path
  fetchSources fs [o.input.locate directory] []

/-- Writes to the disk what a session changed. -/
def store (before after : FileSystem) : IO Unit := do
  for (l, entry) in after.entries do
    match entry, before.entry? l with
    | .directory _, none => IO.FS.createDirAll (String.ofList l.render)
    | _, _ => pure ()
  for (l, bytes) in after.changedSince before do
    IO.FS.writeBinFile (String.ofList l.render) ⟨bytes.toArray⟩

def print (lines : List Line) : IO Unit := do
  for line in lines do
    match line with
    | .out text => IO.println (String.ofList text)
    | .err text => IO.eprintln (String.ofList text)
  (← IO.getStdout).flush

def finish : Ending → IO UInt32
  | .exit code => return code.toUInt32
  | .breakdown b => do
    print [.err b.message]
    return 1

def host : Host where
  load := Yaml.load
  hindrance? := Pause.fault?

partial def watch (w : Watch) (fs : FileSystem) : IO UInt32 := do
  match host.hindrance? w.job.options.interval, w.job.options.interval with
  | none, .seconds s =>
    IO.sleep (s * 1000).toUInt32
    let fs ← fetchFor fs w.job.directory w.job.options
    let looked := w.poll fs
    store fs looked.files
    print looked.lines
    match looked.result with
    | .ok w => watch w looked.files
    | .error b => finish (.breakdown b)
  | some fault, _ => finish (.breakdown (.pause fault))
  | none, .unstated => finish (.breakdown (.pause .unstated))

/-- Runs a session on the disk. -/
def run (arguments : List Text) : IO UInt32 := do
  let directory := (Path.ofText (toString (← IO.currentDir)).toList).names
  let empty : FileSystem := { entries := [], clock := 1 }
  let fs ← match Options.ofArguments arguments with
    | .ok o => fetchFor empty directory o
    | .error _ => pure empty
  let opening := Opening.ofArguments host.load fs directory arguments
  store fs opening.files
  print opening.lines
  match opening.next with
  | .ended ending => finish ending
  | .watching w => watch w opening.files

end Stylesheet.Command

def main (arguments : List String) : IO UInt32 :=
  Stylesheet.Command.run (arguments.map String.toList)
