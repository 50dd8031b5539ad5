import DagScaffold.Artifacts
import DagScaffold.Files.System
import DagScaffold.Manifest.Recovery
import DagScaffold.Project.Validation

/-!
# Projects in a workspace

Every project has a folder of its name below the root of the workspace. Saving a project writes its
files there, each one in one step; loading it reads its manifest. A name that could lead out of the
workspace is refused.

* `Store.save`, `Store.saveConfig` : saving;
* `Store.load` : loading.
-/

namespace DagScaffold.Store

open DagScaffold.Files

/-- Why a project cannot be saved or loaded. -/
inductive Failure where
  | invalid (violations : List Violation)
  | notFound (name path : String)
  | files (reason : Files.Error)
  | manifest (fault : Yaml.Fault)
  deriving DecidableEq, Repr

/-- The wording of a project that is not there. -/
def notFoundMessage (name path : String) : String :=
  "Project '" ++ name ++ "' not found at " ++ path

/-- The wording of a failure. -/
def Failure.message : Failure → String
  | invalid violations => Violation.report violations
  | notFound name path => notFoundMessage name path
  | files reason => "IO error: " ++ reason.message
  | manifest fault => "YAML parsing error: " ++ fault.message

/-- Whether saving a project made its folder or found it. -/
inductive State where
  | created
  | updated
  deriving DecidableEq, Repr

/-- The spelling of a state. -/
def State.name : State → String
  | created => "created"
  | updated => "updated"

/-- What saving a project gives. -/
structure Status where
  state : State
  /-- The folder of the project. -/
  path : String
  /-- The paths of the written files from the folder on, in the order of writing. -/
  files : List String
  savedAt : Instant
  deriving DecidableEq, Repr

/-- The JSON value of a status. -/
def Status.toJson (s : Status) : Json.Value :=
  .object
    [("status", .text s.state.name), ("path", .text s.path), ("files", .list (s.files.map .text)),
      ("saved_at", .text s.savedAt.text)]

/-- The directories that every project has. -/
def subdirectories : List String := ["src", "tests"]

/-- The folder of a project whose name can name one. -/
def folder (settings : Settings) (name : String) : Except Failure String :=
  match Project.nameProblem? name with
  | some problem => .error (.invalid [.projectName problem])
  | none => .ok (settings.projectDir name)

section Operations

variable {m : Type → Type} [Monad m] [FileSystem m]

/-- Takes a failure of a file operation as one of the store. -/
def lift {α : Type} (operation : m (Except Files.Error α)) : ExceptT Failure m α :=
  .mk do
    match ← operation with
    | .ok a => return .ok a
    | .error e => return .error (.files e)

/-- Writes a file below the folder of its project. -/
def writeFile (root : Path) (f : ProjectFile) : ExceptT Failure m Unit :=
  lift (replaceFile (root.descend f.path) f.content)

/-- Writes the folder of a validated project. All texts are made before the first file is
written. -/
def saveConfig (settings : Settings) (config : Config) : ExceptT Failure m Status := do
  let path ← ExceptT.mk (pure (folder settings config.name))
  let root := Path.parse path
  let files := projectFiles settings config
  let existed ← lift (FileSystem.exists? root)
  subdirectories.forM fun name => lift (ensureDirectory (root.child name))
  files.forM (writeFile root)
  let savedAt ← ExceptT.lift FileSystem.now
  return ⟨if existed then .updated else .created, path, files.map ProjectFile.pathText, savedAt⟩

/-- Validates a payload and writes the folder of its project. -/
def save (settings : Settings) (payload : Payload) : ExceptT Failure m Status := do
  match payload.validate with
  | .error violations => throw (.invalid violations)
  | .ok config => saveConfig settings config

/-- Reads the manifest of a project. -/
def readManifest (name path : String) : ExceptT Failure m String := do
  match ← ExceptT.lift (FileSystem.read ((Path.parse path).child Manifest.fileName)) with
  | .ok text => return text
  | .error .notFound => throw (.notFound name path)
  | .error e => throw (.files e)

/-- Makes a payload from the manifest of a project. -/
def load (settings : Settings) (name : String) : ExceptT Failure m Payload := do
  let path ← ExceptT.mk (pure (folder settings name))
  let text ← readManifest name path
  match Manifest.read text with
  | .error fault => throw (.manifest fault)
  | .ok manifest => return manifest.toPayload name

end Operations

end DagScaffold.Store
