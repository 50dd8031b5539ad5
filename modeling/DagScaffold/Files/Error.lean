/-!
# Failures of file operations
-/

namespace DagScaffold.Files

/-- Why an operation on files fails. -/
inductive Error where
  | notFound
  | notADirectory
  | isADirectory
  | alreadyExists
  /-- A file whose octets make up no text. -/
  | notAText
  /-- A failure of the system for a reason of its own. -/
  | system (reason : String)
  deriving DecidableEq, Repr

/-- The wording of a failure. -/
def Error.message : Error → String
  | notFound => "No such file or directory (os error 2)"
  | notADirectory => "Not a directory (os error 20)"
  | isADirectory => "Is a directory (os error 21)"
  | alreadyExists => "File exists (os error 17)"
  | notAText => "stream did not contain valid UTF-8"
  | system reason => reason

end DagScaffold.Files
