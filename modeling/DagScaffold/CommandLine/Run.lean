import DagScaffold.CommandLine.Arguments
import DagScaffold.Store

/-!
# Carrying out commands

A command reads the settings from the environment and a payload or a project from the files, and
gives the text to print.

* `Failure` : why a command cannot be carried out;
* `run` : carrying out a command.
-/

namespace DagScaffold.CommandLine

open DagScaffold.Files

/-- Why a command cannot be carried out. -/
inductive Failure where
  | settings (reason : Settings.Invalid)
  /-- A payload file that cannot be read. -/
  | unreadable (path : String) (reason : Files.Error)
  | json (text : String) (failure : Json.Failure)
  | yaml (fault : Yaml.Fault)
  | store (reason : Store.Failure)
  deriving DecidableEq, Repr

/-- The wording of a payload file that cannot be read. -/
def unreadableMessage (path : String) (reason : Files.Error) : String :=
  "Failed to read " ++ path ++ ": " ++ reason.message

/-- The wording of a failure. -/
def Failure.message : Failure → String
  | settings reason => reason.message
  | unreadable path reason => unreadableMessage path reason
  | json text failure => failure.message text
  | yaml fault => fault.message
  | store reason => reason.message

/-- Whether a file of the name holds YAML; any other holds JSON. -/
def holdsYaml (path : String) : Bool :=
  extension? path = some "yaml" || extension? path = some "yml"

/-- Reads a payload from the text of a file. -/
def payloadOfText (path text : String) : Except Failure Payload :=
  if holdsYaml path then
    match Yaml.Reader.run Payload.reading text with
    | .ok p => .ok p
    | .error fault => .error (.yaml fault)
  else
    match Payload.ofJsonText text with
    | .ok p => .ok p
    | .error failure => .error (.json text failure)

/-- The project of a payload. -/
def validated (p : Payload) : Except Failure Config :=
  match p.validate with
  | .ok config => .ok config
  | .error violations => .error (.store (.invalid violations))

/-- The text of an artifact. -/
def Artifact.text (a : Artifact) (settings : Settings) (config : Config) : String :=
  match a with
  | manifest => Manifest.write settings config
  | dag => Dag.file settings config
  | taskModule => TaskModule.file config

/-- A JSON value as a command prints it. -/
def printed (v : Json.Value) : String :=
  v.pretty ++ "\n"

/-- The settings with another root of the workspace if one is given. -/
def withRoot (settings : Settings) (root : Option String) : Settings :=
  { settings with workspaceRoot := root.getD settings.workspaceRoot }

section Commands

variable {m : Type → Type} [Monad m] [FileSystem m]

/-- Reads a payload from a file. -/
def readPayload (path : String) : ExceptT Failure m Payload := do
  match ← ExceptT.lift (FileSystem.read (Path.parse path)) with
  | .error reason => throw (.unreadable path reason)
  | .ok text => ExceptT.mk (pure (payloadOfText path text))

/-- Reads a project from a payload file. -/
def readProject (path : String) : ExceptT Failure m Config := do
  let payload ← readPayload path
  ExceptT.mk (pure (validated payload))

/-- Takes a failure of the store as one of a command. -/
def ofStore {α : Type} (operation : ExceptT Store.Failure m α) : ExceptT Failure m α :=
  .mk do
    match ← operation.run with
    | .ok a => return .ok a
    | .error reason => return .error (.store reason)

/-- Carries out a command with settings and gives the text to print. -/
def runWith (settings : Settings) : Command → ExceptT Failure m String
  | .validate payload => do
    let config ← readProject payload
    return printed (Payload.ofConfig config).toJson
  | .render payload artifact => do
    let config ← readProject payload
    return artifact.text settings config
  | .save payload root => do
    let p ← readPayload payload
    let status ← ofStore (Store.save (withRoot settings root) p)
    return printed status.toJson
  | .load name root => do
    let p ← ofStore (Store.load (withRoot settings root) name)
    return printed p.toJson

/-- Carries out a command in an environment and gives the text to print. -/
def run (environment : String → Option String) (command : Command) : ExceptT Failure m String :=
  match Settings.ofEnvironment environment with
  | .error reason => throw (.settings reason)
  | .ok settings => runWith settings command

end Commands

end DagScaffold.CommandLine
