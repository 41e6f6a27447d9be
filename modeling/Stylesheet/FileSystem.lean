import Stylesheet.Path
import Stylesheet.Utf8

/-!
# File systems

A file system holds files and directories at locations. Everything has a stamp, the time of its last
change: writing a file gives it a stamp that nothing had before. Some of it may be out of bounds for
whoever works with it: files that may not be read or written, and directories that may not be changed
or entered.
-/

namespace Stylesheet

open Text

inductive Entry where
  | file (bytes : List UInt8) (stamp : Nat)
  | directory (stamp : Nat)
deriving DecidableEq

def Entry.stamp : Entry → Nat
  | file _ stamp => stamp
  | directory stamp => stamp

inductive FileFault where
  | notFound
  | isDirectory
  | notDirectory
  | nameTooLong
  | alreadyExists
  | denied
deriving DecidableEq, Repr

/-- The number by which the fault is known to the system. -/
def FileFault.number : FileFault → Nat
  | notFound => 2
  | isDirectory => 21
  | notDirectory => 20
  | nameTooLong => 36
  | alreadyExists => 17
  | denied => 13

def FileFault.message : FileFault → Text
  | notFound => "No such file or directory"
  | isDirectory => "Is a directory"
  | notDirectory => "Not a directory"
  | nameTooLong => "File name too long"
  | alreadyExists => "File exists"
  | denied => "Permission denied"

inductive ReadFault where
  | file (fault : FileFault)
  | encoding (fault : Utf8.Fault)
deriving DecidableEq

def ReadFault.message : ReadFault → Text
  | file fault => fault.message
  | encoding fault => fault.message

/-- What can be done with what is at a location. -/
inductive Right where
  | read
  /-- To change a file, or which names are in a directory. -/
  | write
  /-- To look up names in a directory. -/
  | enter
deriving DecidableEq

structure FileSystem where
  entries : List (Location × Entry)
  /-- A time after the stamps of all entries. -/
  clock : Nat
  /-- What may not be done where. -/
  bans : List (Location × Right) := []

namespace FileSystem

/-- Whether something may not be done at a location. -/
def forbids (fs : FileSystem) (right : Right) (l : Location) : Bool :=
  fs.bans.contains (l, right)

def locations (fs : FileSystem) : List Location :=
  fs.entries.map Prod.fst

/-- What is at a location. The root is always a directory. -/
def entry? (fs : FileSystem) (l : Location) : Option Entry :=
  match fs.entries.find? (·.1 == l) with
  | some (_, entry) => some entry
  | none => if l.isEmpty then some (.directory 0) else none

def nameLimit : Nat := 255

def pathLimit : Nat := 4095

/-- Whether the text of a path has too many bytes. -/
def isTooLong (path : Text) : Bool :=
  pathLimit < (Utf8.encode path).length

/-- What keeps a list of names from being looked up one after another below `front`. -/
def obstacle? (fs : FileSystem) (front : Location) : List Text → Option FileFault
  | [] => none
  | name :: rest =>
    match fs.entry? front with
    | none => some .notFound
    | some (.file _ _) => some .notDirectory
    | some (.directory _) =>
      if fs.forbids .enter front then some .denied
      else if nameLimit < (Utf8.encode name).length then some .nameTooLong
      else obstacle? fs (front ++ [name]) rest

/-- What is at a location, if the way there from the root is free. -/
def visit (fs : FileSystem) (l : Location) : Except FileFault Entry :=
  match fs.obstacle? [] l, fs.entry? l with
  | some fault, _ => .error fault
  | none, some entry => .ok entry
  | none, none => .error .notFound

/-- What is reached from a location by the names of a path, each looked up in the directory before. -/
def follow (fs : FileSystem) (l : Location) : List Text → Except FileFault (Location × Entry)
  | [] => (fs.visit l).map (l, ·)
  | name :: rest =>
    match fs.visit l with
    | .error fault => .error fault
    | .ok (.file _ _) => .error .notDirectory
    | .ok (.directory _) =>
      if fs.forbids .enter l then .error .denied else follow fs (l.enter name) rest

/-- The location at which the names of a path are looked up. -/
def start (directory : Location) (p : Path) : Location :=
  match p.anchor with
  | .here => directory
  | _ => []

/-- Where a path leads, seen from a directory, and what is there. -/
def find (fs : FileSystem) (directory : Location) (p : Path) : Except FileFault (Location × Entry) :=
  if isTooLong p.render then .error .nameTooLong else fs.follow (start directory p) p.names

/-- What is at a location, if it may be read. -/
def opened (fs : FileSystem) (l : Location) : Except FileFault Entry :=
  match fs.visit l with
  | .error fault => .error fault
  | .ok entry => if fs.forbids .read l then .error .denied else .ok entry

/-- What a path names, seen from a directory, if it may be read. -/
def openedPath (fs : FileSystem) (directory : Location) (p : Path) : Except FileFault Entry :=
  match fs.find directory p with
  | .error fault => .error fault
  | .ok (l, _) => fs.opened l

def bytesOf : Except FileFault Entry → Except FileFault (List UInt8)
  | .error fault => .error fault
  | .ok (.directory _) => .error .isDirectory
  | .ok (.file bytes _) => .ok bytes

/-- The text of a file: strict UTF-8, with line feeds alone at the ends of lines. -/
def textOf : Except FileFault Entry → Except ReadFault Text
  | .error fault => .error (.file fault)
  | .ok (.directory _) => .error (.file .isDirectory)
  | .ok (.file bytes _) =>
    match Utf8.decode bytes with
    | .error fault => .error (.encoding fault)
    | .ok text => .ok (Utf8.unifyNewlines text)

def read (fs : FileSystem) (l : Location) : Except ReadFault Text :=
  if isTooLong l.render then .error (.file .nameTooLong) else textOf (fs.opened l)

def readPath (fs : FileSystem) (directory : Location) (p : Path) : Except ReadFault Text :=
  textOf (fs.openedPath directory p)

/-- The file system with an entry put at a location, in place of what was there. The clock goes on,
and a directory that gains the entry changes with it. Nothing is forbidden with what is new. -/
def put (fs : FileSystem) (l : Location) (entry : Nat → Entry) : FileSystem :=
  if (fs.entry? l).isSome then
    { fs with
      entries := fs.entries.map fun e => if e.1 = l then (l, entry fs.clock) else e
      clock := fs.clock + 1 }
  else
    { entries := fs.entries.map (touch l.dropLast fs.clock) ++ [(l, entry fs.clock)]
      clock := fs.clock + 1
      bans := fs.bans.filter fun ban => ban.1 != l }
where
  /-- An entry with a new stamp, if it is the directory at `parent`. -/
  touch (parent : Location) (stamp : Nat) (e : Location × Entry) : Location × Entry :=
    if e.1 = parent then
      match e.2 with
      | .directory _ => (e.1, .directory stamp)
      | .file _ _ => e
    else e

/-- The file system without a location and all below it. -/
def delete (fs : FileSystem) (l : Location) : FileSystem :=
  if (fs.entry? l).isNone then fs
  else
    { entries := (fs.entries.filter fun e => !l.isPrefixOf e.1).map (put.touch l.dropLast fs.clock)
      clock := fs.clock + 1
      bans := fs.bans.filter fun ban => !l.isPrefixOf ban.1 }

def putFile (fs : FileSystem) (l : Location) (bytes : List UInt8) : FileSystem :=
  fs.put l (.file bytes)

/-- The file system with a directory at a location, unless something is there. -/
def putDirectory (fs : FileSystem) (l : Location) : FileSystem :=
  if (fs.entry? l).isSome then fs else fs.put l .directory

/-- The file system with directories at all locations that lead to a location. -/
def putParents (fs : FileSystem) (l : Location) : FileSystem :=
  (List.range l.length).foldl (fun fs n => fs.putDirectory (l.take n)) fs

/-- The directory that holds the last of a list of names, and the place of that name in it. -/
def place (fs : FileSystem) (l : Location) (names : List Text) :
    Except FileFault (Option Location) :=
  match names.getLast? with
  | none => .ok none
  | some name =>
    match fs.follow l names.dropLast with
    | .error fault => .error fault
    | .ok (_, .file _ _) => .error .notDirectory
    | .ok (parent, .directory _) =>
      if fs.forbids .enter parent then .error .denied else .ok (some (parent.enter name))

/-- Makes the directory that a list of names from a location ends with. The directory that is to hold
it must be there. -/
def makeDirectory (fs : FileSystem) (l : Location) (names : List Text) :
    Except FileFault FileSystem :=
  match fs.place l names with
  | .error fault => .error fault
  | .ok none => .error .alreadyExists
  | .ok (some target) =>
    match fs.visit target with
    | .ok _ => .error .alreadyExists
    | .error .notFound =>
      if fs.forbids .write target.dropLast then .error .denied else .ok (fs.put target .directory)
    | .error fault => .error fault

/-- Accepts that a directory cannot be made if it is there already. -/
def orPresent (fs : FileSystem) (l : Location) (names : List Text)
    (made : Except FileFault FileSystem) : Except FileFault FileSystem :=
  match made with
  | .ok fs => .ok fs
  | .error fault =>
    match fault, fs.follow l names with
    | .notFound, _ => .error .notFound
    | _, .ok (_, .directory _) => .ok fs
    | fault, _ => .error fault

/-- Makes a directory and those that lead to it, as far as they are missing. -/
def makeDirectories (fs : FileSystem) (l : Location) (names : List Text) :
    Except FileFault FileSystem :=
  match fs.makeDirectory l names with
  | .error .notFound =>
    if names.isEmpty then .error .notFound
    else
      match makeDirectories fs l names.dropLast with
      | .error fault => .error fault
      | .ok fs => fs.orPresent l names (fs.makeDirectory l names)
  | made => fs.orPresent l names made
termination_by names.length
decreasing_by
  cases names with
  | nil => simp_all
  | cons name rest => simp

/-- Writes a text to the file that a list of names from a location ends with. -/
def writeText (fs : FileSystem) (l : Location) (names : List Text) (text : Text) :
    Except FileFault FileSystem :=
  match fs.place l names with
  | .error fault => .error fault
  | .ok none => .error .isDirectory
  | .ok (some target) =>
    -- A new file is a change of the directory that it is in.
    let changed : Except FileFault Location :=
      match fs.visit target with
      | .ok (.directory _) => .error .isDirectory
      | .ok (.file _ _) => .ok target
      | .error .notFound => .ok target.dropLast
      | .error fault => .error fault
    match changed with
    | .error fault => .error fault
    | .ok l =>
      if fs.forbids .write l then .error .denied else .ok (fs.putFile target (Utf8.encode text))

/-- The files that are not the same in another file system, with their bytes. -/
def changedSince (fs before : FileSystem) : List (Location × List UInt8) :=
  fs.entries.filterMap fun (l, entry) =>
    match entry, before.entry? l with
    | .file bytes _, some (.file old _) => if bytes = old then none else some (l, bytes)
    | .file bytes _, _ => some (l, bytes)
    | .directory _, _ => none

variable {fs : FileSystem} {l : Location}

theorem visit_eq_ok {entry : Entry} :
    fs.visit l = .ok entry ↔ fs.obstacle? [] l = none ∧ fs.entry? l = some entry := by
  unfold visit
  split <;> simp_all

theorem opened_eq_ok {entry : Entry} :
    fs.opened l = .ok entry ↔ fs.visit l = .ok entry ∧ fs.forbids .read l = false := by
  unfold opened
  cases visited : fs.visit l with
  | error fault => simp
  | ok found => cases forbidden : fs.forbids .read l <;> simp

theorem read_eq_ok {text : Text} :
    fs.read l = .ok text ↔
      isTooLong l.render = false ∧ fs.forbids .read l = false ∧
        ∃ entry, fs.visit l = .ok entry ∧ textOf (.ok entry) = .ok text := by
  unfold read
  cases long : isTooLong l.render with
  | true => simp
  | false =>
    cases found : fs.opened l with
    | error fault =>
      have none (entry : Entry) : ¬ (fs.visit l = .ok entry ∧ fs.forbids .read l = false) := by
        simp [← opened_eq_ok, found]
      simp only [textOf]
      grind
    | ok entry =>
      obtain ⟨visited, allowed⟩ := opened_eq_ok.1 found
      simp [visited, allowed]

theorem mem_locations_of_read {text : Text} (h : fs.read l = .ok text) : l ∈ fs.locations := by
  obtain ⟨-, -, entry, visited, held⟩ := read_eq_ok.1 h
  have there := (visit_eq_ok.1 visited).2
  unfold entry? at there
  split at there
  · rename_i m _ found
    have listed := List.mem_of_find?_eq_some found
    have same := List.find?_some found
    simp only [beq_iff_eq] at same
    subst same
    exact List.mem_map.2 ⟨_, listed, rfl⟩
  · split at there
    · cases there
      cases held
    · cases there

end FileSystem

end Stylesheet
