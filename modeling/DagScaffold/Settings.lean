import DagScaffold.Calendar
import DagScaffold.Files.Path

/-!
# Settings

The fixed roots and fallback values of the generated files. They have defaults, which the variables
of the environment replace one by one.

* `Settings`, `Settings.ofEnvironment` : the values and where they come from;
* `Settings.dataPath`, `Settings.projectDir` : paths below the root of the workspace.
-/

namespace DagScaffold

/-- The day from which a DAG runs when none is set. -/
def defaultStartDate : Date where
  year := 2023
  month := 1
  day := 1

/-- The settings of generation. -/
structure Settings where
  /-- The directory of all projects, from which relative data paths are taken. -/
  workspaceRoot : String := "/home/jovyan/workspaces"
  condaEnvsRoot : String := "/etc/conda/envs/custom"
  /-- The environment of a DAG whose project does without one. -/
  defaultEnvName : String := "airflow-env"
  /-- The pool of a task when neither it nor its project names one. -/
  defaultPool : String := "default_pool"
  startDate : Date := defaultStartDate
  deriving DecidableEq, Repr

namespace Settings

/-! ## The environment -/

/-- The variables that are read, in the order of their reading. -/
inductive Variable where
  | workspaceRoot
  | condaEnvsRoot
  | defaultEnv
  | defaultPool
  | startDate
  deriving DecidableEq, Repr

/-- The name of a variable in the environment. -/
def Variable.key : Variable → String
  | workspaceRoot => "DAG_FORGE_WORKSPACE_ROOT"
  | condaEnvsRoot => "DAG_FORGE_CONDA_ENVS_ROOT"
  | defaultEnv => "DAG_FORGE_DEFAULT_ENV"
  | defaultPool => "DAG_FORGE_DEFAULT_POOL"
  | startDate => "DAG_FORGE_START_DATE"

/-- A variable with a value that cannot be used. -/
inductive Invalid where
  | blank (which : Variable)
  | notADate (which : Variable) (value : String)
  deriving DecidableEq, Repr

/-- The wording of a value that cannot be used. -/
def Invalid.message : Invalid → String
  | blank v => "Invalid value for " ++ v.key ++ ": must not be empty"
  | notADate v value =>
    "Invalid value for " ++ v.key ++ ": expected YYYY-MM-DD, got '" ++ value ++ "'"

/-- A value without the blanks around it, which must leave something. -/
def nonBlank (v : Variable) (value : String) : Except Invalid String :=
  let trimmed := Text.trim value
  if trimmed = "" then .error (.blank v) else .ok trimmed

/-- The date that a value writes between blanks. -/
def dateValue (v : Variable) (value : String) : Except Invalid Date :=
  match Date.parse? (Text.trim value) with
  | some d => .ok d
  | none => .error (.notADate v value)

/-- Sets what a variable stands for. -/
def set (s : Settings) (v : Variable) (value : String) : Except Invalid Settings :=
  match v with
  | .workspaceRoot => (nonBlank v value).map fun x => { s with workspaceRoot := x }
  | .condaEnvsRoot => (nonBlank v value).map fun x => { s with condaEnvsRoot := x }
  | .defaultEnv => (nonBlank v value).map fun x => { s with defaultEnvName := x }
  | .defaultPool => (nonBlank v value).map fun x => { s with defaultPool := x }
  | .startDate => (dateValue v value).map fun x => { s with startDate := x }

/-- Every variable in the order of reading. -/
def allVariables : List Variable :=
  [.workspaceRoot, .condaEnvsRoot, .defaultEnv, .defaultPool, .startDate]

/-- The settings with the variables of an environment in place of their defaults; the first value
that cannot be used is the failure. -/
def ofEnvironment (env : String → Option String) : Except Invalid Settings :=
  allVariables.foldlM
    (fun s v =>
      match env v.key with
      | some value => s.set v value
      | none => .ok s)
    {}

/-! ## Paths -/

/-- The directory of a project. -/
def projectDir (s : Settings) (project : String) : String :=
  Files.join s.workspaceRoot project

/-- The path of a project's data; a path from the root stays as it is. -/
def dataPath (s : Settings) (path : String) : String :=
  if Files.isAbsolute path then path else Files.join s.workspaceRoot path

end Settings

end DagScaffold
