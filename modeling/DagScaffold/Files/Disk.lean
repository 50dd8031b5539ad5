import DagScaffold.Files.System

/-!
# A disk in memory

A disk is a finite map from places to files and directories. A place is the row of names that leads
to it from the root, which is always a directory; there are no links.

* `Disk` : the map, and the operations on it;
* `World` : a disk whose calls may also fail by themselves, with a journal of the calls; the file
  system of a pure program.
-/

namespace DagScaffold.Files

/-- What a file holds. -/
inductive Content where
  | text (value : String)
  /-- Octets that make up no text. -/
  | octets (values : List UInt8)
  deriving DecidableEq, Repr

/-- What is at a place. -/
inductive Object where
  | file (content : Content)
  | directory
  deriving DecidableEq, Repr

/-- The names that lead to a place from the root. -/
abbrev Location := List String

/-- Files and directories by their places, and the place from which relative paths start. -/
structure Disk where
  objects : List (Location × Object) := []
  workingDirectory : Location := []
  deriving DecidableEq, Repr

namespace Disk

/-! ## Places -/

/-- What is at a place. -/
def at? (d : Disk) (l : Location) : Option Object :=
  if l = [] then some .directory else d.objects.lookup l

/-- The disk with an object at a place. -/
def put (d : Disk) (l : Location) (o : Object) : Disk :=
  { d with objects := (l, o) :: d.objects.filter (·.1 ≠ l) }

/-- The disk with nothing at a place. -/
def erase (d : Disk) (l : Location) : Disk :=
  { d with objects := d.objects.filter (·.1 ≠ l) }

/-- Fails unless there is a directory at a place. -/
def requireDirectory (d : Disk) (l : Location) : Except Error Unit :=
  match d.at? l with
  | some .directory => .ok ()
  | some (.file _) => .error .notADirectory
  | none => .error .notFound

/-- The place that the parts of a path lead to from another place. Every place on the way must be a
directory, the last one may be missing. -/
def walk (d : Disk) : Location → List Part → Except Error Location
  | l, [] => .ok l
  | l, part :: parts =>
    (d.requireDirectory l).bind fun _ =>
      match part with
      | .entry name => d.walk (l ++ [name]) parts
      | .above => d.walk l.dropLast parts

/-- The place that a path leads to. -/
def locate (d : Disk) (p : Path) : Except Error Location :=
  d.walk (if p.absolute then [] else d.workingDirectory) p.parts

/-- The place of a path and what is there. -/
def find (d : Disk) (p : Path) : Except Error (Location × Object) :=
  (d.locate p).bind fun l =>
    match d.at? l with
    | some .directory => .ok (l, .directory)
    | some o => if p.directoryOnly then .error .notADirectory else .ok (l, o)
    | none => .error .notFound

/-! ## Operations -/

/-- Whether there is something at a path; a path that leads through a file fails. -/
def exists? (d : Disk) (p : Path) : Except Error Bool :=
  match d.find p with
  | .ok _ => .ok true
  | .error .notFound => .ok false
  | .error e => .error e

/-- Whether there is a directory at a path. -/
def isDirectory (d : Disk) (p : Path) : Bool :=
  match d.find p with
  | .ok (_, .directory) => true
  | _ => false

/-- Makes a directory in one that exists. -/
def makeDirectory (d : Disk) (p : Path) : Except Error Disk :=
  (d.locate p).bind fun l =>
    match d.at? l with
    | some _ => .error .alreadyExists
    | none => .ok (d.put l .directory)

/-- The text of a file. -/
def read (d : Disk) (p : Path) : Except Error String :=
  (d.find p).bind fun
    | (_, .directory) => .error .isADirectory
    | (_, .file (.text s)) => .ok s
    | (_, .file (.octets _)) => .error .notAText

/-- Gives a file a content; a file that is missing is made. -/
def write (d : Disk) (p : Path) (content : Content) : Except Error Disk :=
  (d.locate p).bind fun l =>
    match d.at? l with
    | some .directory => .error .isADirectory
    | some (.file _) =>
      if p.directoryOnly then .error .notADirectory else .ok (d.put l (.file content))
    | none => if p.directoryOnly then .error .isADirectory else .ok (d.put l (.file content))

/-- Moves a file onto another place, whose file it replaces. -/
def rename (d : Disk) (source target : Path) : Except Error Disk :=
  (d.find source).bind fun
    | (_, .directory) => .error .isADirectory
    | (old, .file content) =>
      (d.locate target).bind fun new =>
        match d.at? new with
        | some .directory => .error .isADirectory
        | _ => .ok ((d.erase old).put new (.file content))

/-- Removes a file. -/
def remove (d : Disk) (p : Path) : Except Error Disk :=
  (d.find p).bind fun
    | (_, .directory) => .error .isADirectory
    | (l, .file _) => .ok (d.erase l)

/-- Removes what is at a path and, of a directory, all that is in it. -/
def removeAll (d : Disk) (p : Path) : Except Error Disk :=
  (d.find p).map fun found =>
    { d with objects := d.objects.filter fun entry => !found.1.isPrefixOf entry.1 }

/-! ## Listing -/

/-- The names that lead to a place from another one above it. -/
def below? : Location → Location → Option Location
  | [], [] => none
  | [], l => some l
  | _ :: _, [] => none
  | a :: as, b :: bs => if a = b then below? as bs else none

/-- Puts a text into a sorted list of texts. -/
def insertSorted (s : String) : List String → List String
  | [] => [s]
  | t :: ts => if t < s then t :: insertSorted s ts else s :: t :: ts

/-- The paths of all that is below the working directory in ascending order; those of directories
end in a slash. -/
def listing (d : Disk) : List String :=
  let paths := d.objects.filterMap fun entry =>
    (below? d.workingDirectory entry.1).map fun names =>
      "/".intercalate names ++ if entry.2 = .directory then "/" else ""
  paths.foldr insertSorted []

end Disk

/-! ## Programs on a disk in memory -/

/-- A call to a file system. -/
inductive Call where
  | exists? (p : Path)
  | isDirectory (p : Path)
  | makeDirectory (p : Path)
  | read (p : Path)
  | write (p : Path) (content : String)
  | rename (source target : Path)
  | remove (p : Path)
  deriving DecidableEq, Repr

/-- A call that was made, and the disk that it left. -/
structure Event where
  call : Call
  disk : Disk
  deriving DecidableEq, Repr

/-- A disk, the calls to it so far, and the calls that fail by themselves, by their number and by
what they ask for. A call that fails leaves the disk as it is. -/
structure World where
  disk : Disk
  /-- The first call comes first. -/
  journal : List Event := []
  faults : Nat → Call → Option Error := fun _ _ => none
  clock : Instant := ⟨0, 0⟩

namespace World

/-- What a call comes to, unless it fails by itself. -/
def outcome {α : Type} (w : World) (call : Call)
    (operation : Disk → Except Error (α × Disk)) : Except Error (α × Disk) :=
  match w.faults w.journal.length call with
  | some e => .error e
  | none => operation w.disk

/-- The disk after a call. -/
def diskAfter {α : Type} (w : World) : Except Error (α × Disk) → Disk
  | .ok (_, d) => d
  | .error _ => w.disk

/-- Makes one call. -/
def perform {α : Type} (call : Call) (operation : Disk → Except Error (α × Disk)) :
    StateM World (Except Error α) :=
  fun w =>
    let result := w.outcome call operation
    let disk := w.diskAfter result
    (result.map Prod.fst, { w with disk, journal := w.journal ++ [⟨call, disk⟩] })

instance : FileSystem (StateM World) where
  exists? p := perform (.exists? p) fun d => (d.exists? p).map fun b => (b, d)
  isDirectory p := do
    -- a call that fails finds no directory
    match ← perform (.isDirectory p) fun d => .ok (d.isDirectory p, d) with
    | .ok b => return b
    | .error _ => return false
  makeDirectory p := perform (.makeDirectory p) fun d => (d.makeDirectory p).map fun d => ((), d)
  read p := perform (.read p) fun d => (d.read p).map fun s => (s, d)
  write p s := perform (.write p s) fun d => (d.write p (.text s)).map fun d => ((), d)
  rename source target :=
    perform (.rename source target) fun d => (d.rename source target).map fun d => ((), d)
  remove p := perform (.remove p) fun d => (d.remove p).map fun d => ((), d)
  freshTag := fun w => (toString w.journal.length, w)
  now := fun w => (w.clock, w)

end World

end DagScaffold.Files
