import DagScaffold.Calendar
import DagScaffold.Files.Error
import DagScaffold.Files.Path

/-!
# File systems

What a program asks of the files around it, one call at a time, and two activities made of such
calls.

* `FileSystem` : the calls;
* `ensureDirectory` : making a directory and those above it;
* `replaceFile` : replacing a file in one step.
-/

namespace DagScaffold.Files

/-- The calls to a file system, and the clock and the names that come with it. -/
class FileSystem (m : Type → Type) where
  exists? : Path → m (Except Error Bool)
  isDirectory : Path → m Bool
  makeDirectory : Path → m (Except Error Unit)
  read : Path → m (Except Error String)
  write : Path → String → m (Except Error Unit)
  /-- Moves a file onto another place, whose file it replaces. -/
  rename : Path → Path → m (Except Error Unit)
  remove : Path → m (Except Error Unit)
  /-- A text that no temporary file has in its name. -/
  freshTag : m String
  now : m Instant

variable {m : Type → Type} [Monad m] [FileSystem m]

/-- Makes the directory with the given parts, the last one first, where there is none; the
directories above it are made when the first attempt finds that they are missing. -/
def ensureParts (absolute : Bool) : List Part → m (Except Error Unit)
  | [] => pure (.ok ())
  | part :: above => do
    let path : Path := { absolute, parts := (part :: above).reverse }
    match ← FileSystem.makeDirectory path with
    | .ok () => pure (.ok ())
    | .error .notFound =>
      match ← ensureParts absolute above with
      | .error e => pure (.error e)
      | .ok () =>
        match ← FileSystem.makeDirectory path with
        | .ok () => pure (.ok ())
        | .error e => return if ← FileSystem.isDirectory path then .ok () else .error e
    | .error e => return if ← FileSystem.isDirectory path then .ok () else .error e

/-- Makes a directory and those above it. -/
def ensureDirectory (p : Path) : m (Except Error Unit) :=
  ensureParts p.absolute p.parts.reverse

/-- The name of the temporary file that is to become the file `name`. -/
def temporaryName (name tag : String) : String :=
  "." ++ name ++ "." ++ tag ++ ".tmp"

/-- Writes a temporary file and moves it onto the place; when that fails the temporary file is
removed. -/
def moveInto (temporary target : Path) (content : String) : m (Except Error Unit) := do
  match ← FileSystem.write temporary content with
  | .error e => pure (.error e)
  | .ok () =>
    match ← FileSystem.rename temporary target with
    | .ok () => pure (.ok ())
    | .error e => do
      let _ ← FileSystem.remove temporary
      pure (.error e)

/-- Replaces the content of a file in one step. -/
def replaceFile (target : Path) (content : String) : m (Except Error Unit) := do
  match ← ensureDirectory target.parent with
  | .error e => pure (.error e)
  | .ok () => do
    let tag ← FileSystem.freshTag
    moveInto (target.sibling (temporaryName target.name tag)) target content

end DagScaffold.Files
