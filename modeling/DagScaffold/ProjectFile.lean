/-!
# Files of a project

A file as it is generated: its path in the folder of the project and its content.
-/

namespace DagScaffold

/-- A generated file. -/
structure ProjectFile where
  /-- The names of the directories and of the file, from the folder of the project on. -/
  path : List String
  content : String
  deriving DecidableEq, Repr

/-- The written form of a file's path. -/
def ProjectFile.pathText (f : ProjectFile) : String :=
  "/".intercalate f.path

end DagScaffold
