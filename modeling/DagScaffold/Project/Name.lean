import DagScaffold.Text.Case

/-!
# Names of projects and robin codes

A project's name becomes a directory, a file name and the identifier of its DAG, so it holds letters
and digits of ASCII, underscores and hyphens only. Its robin code keeps four characters.

* `normalizeName`, `normalizeRobin` : the forms that a project keeps;
* `NameProblem`, `nameProblem?` : why a name cannot name a project.
-/

namespace DagScaffold.Project

/-! ## Normal forms -/

/-- The name in lower case with an underscore for every space. -/
def normalizeName (name : String) : String :=
  Text.toLower (.ofList (name.toList.map fun c => if c = ' ' then '_' else c))

/-- The number of characters that a robin code keeps. -/
def robinLength : Nat := 4

/-- The first characters of the robin code in lower case. -/
def normalizeRobin (robin : String) : String :=
  .ofList ((Text.toLower robin).toList.take robinLength)

/-! ## Names that cannot be used -/

/-- Whether a character may stand in a project's name. -/
def isNameChar (c : Char) : Bool :=
  c.isAlphanum || c = '_' || c = '-'

/-- Why a name cannot name a project. -/
inductive NameProblem where
  | empty
  | separator (name : String)
  | notADirectory (name : String)
  | character (name : String) (c : Char)
  deriving DecidableEq, Repr

/-- The first problem of a name, if it has one. -/
def nameProblem? (name : String) : Option NameProblem :=
  if name = "" then some .empty
  else if name.toList.any fun c => c = '/' || c = '\\' then some (.separator name)
  else if name = "." ∨ name = ".." then some (.notADirectory name)
  else (name.toList.find? fun c => !isNameChar c).map (.character name)

/-- The wording of a problem. -/
def NameProblem.message : NameProblem → String
  | empty => "project name must not be empty"
  | separator name => "project name '" ++ name ++ "' must not contain path separators"
  | notADirectory name => "project name '" ++ name ++ "' is not a directory name"
  | character name c =>
    "project name '" ++ name ++ "' contains '" ++ String.singleton c ++
      "'; use letters, digits, '_', '-' or spaces"

end DagScaffold.Project
