/-!
# Paths

A path is kept as it was written. Its parts are what the slashes separate; joining two paths writes
the second behind the first, unless it starts at the root by itself.

* `join` : the joined text of two paths;
* `Path`, `Path.parse` : a path by its parts;
* `fileName?`, `extension?` : the last part and its ending.
-/

namespace DagScaffold.Files

/-! ## Paths as texts -/

/-- Whether a path starts at the root. -/
def isAbsolute (path : String) : Bool :=
  path.toList.head? = some '/'

/-- The path `path` taken from `base`. -/
def join (base path : String) : String :=
  if isAbsolute path || base = "" then path
  else if base.toList.getLast? = some '/' then base ++ path
  else base ++ "/" ++ path

/-- The pieces of a text between the slashes. -/
def pieces : List Char → List (List Char)
  | [] => [[]]
  | c :: cs =>
    if c = '/' then [] :: pieces cs
    else
      match pieces cs with
      | p :: ps => (c :: p) :: ps
      | [] => [[c]]

/-! ## Paths by their parts -/

/-- A step of a path: to an entry of a directory, or to the directory above. -/
inductive Part where
  | entry (name : String)
  | above
  deriving DecidableEq, Repr

/-- The part that a piece of a path stands for; an empty piece and a single dot are none. -/
def Part.of? (piece : List Char) : Option Part :=
  if piece = [] ∨ piece = ['.'] then none
  else if piece = ['.', '.'] then some .above
  else some (.entry (.ofList piece))

/-- The written form of a part. -/
def Part.text : Part → String
  | .entry name => name
  | .above => ".."

/-- A path from the root or from the working directory. -/
structure Path where
  absolute : Bool
  parts : List Part
  /-- The path ends in a slash or a single dot, so it can only name a directory. -/
  directoryOnly : Bool := false
  deriving DecidableEq, Repr

namespace Path

/-- The path that a text writes. -/
def parse (s : String) : Path :=
  let ps := pieces s.toList
  { absolute := isAbsolute s
    parts := ps.filterMap Part.of?
    directoryOnly := s ≠ "" && (ps.getLast? = some [] || ps.getLast? = some ['.']) }

/-- The path of an entry in the directory of the path. -/
def child (p : Path) (name : String) : Path :=
  { p with parts := p.parts ++ [.entry name], directoryOnly := false }

/-- The path of an entry that is reached by the given names. -/
def descend (p : Path) (names : List String) : Path :=
  names.foldl child p

/-- The path of the directory that holds the entry of a path. -/
def parent (p : Path) : Path :=
  { p with parts := p.parts.dropLast, directoryOnly := false }

/-- The path of an entry beside that of a path. -/
def sibling (p : Path) (name : String) : Path :=
  p.parent.child name

/-- The last part of a path if it is an entry, else an empty name. -/
def name (p : Path) : String :=
  match p.parts.getLast? with
  | some (.entry name) => name
  | _ => ""

/-- The written form of a path; that of the working directory is a dot. -/
def text (p : Path) : String :=
  let inner := "/".intercalate (p.parts.map Part.text)
  if p.absolute then "/" ++ inner
  else if inner = "" then "."
  else inner

end Path

/-! ## File names -/

/-- The last part of a path, if it is an entry. -/
def fileName? (path : String) : Option String :=
  match (Path.parse path).parts.getLast? with
  | some (.entry name) => some name
  | _ => none

/-- The characters after the last dot of a name that is given in reverse, together with what comes
before that dot. -/
def splitLastDot (name : List Char) : Option (List Char × List Char) :=
  match name.span (· ≠ '.') with
  | (_, []) => none
  | (ending, _ :: stem) => some (stem.reverse, ending.reverse)

/-- The ending of a path's last part: what follows its last dot, unless the part starts with it. -/
def extension? (path : String) : Option String := do
  let name ← fileName? path
  let (stem, ending) ← splitLastDot name.toList.reverse
  if stem.isEmpty then none else some (.ofList ending)

end DagScaffold.Files
