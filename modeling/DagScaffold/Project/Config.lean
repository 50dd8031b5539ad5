import DagScaffold.Project.Task

/-!
# Validated projects

A `Config` is a project that has passed validation: the input of all that generates text.

* `Config` : the project;
* `Config.folder`, `Config.dagFile`, `Config.dagId` : the names that are made from its name.
-/

namespace DagScaffold

/-- A validated project. -/
structure Config where
  /-- In lower case, without spaces. -/
  name : String
  /-- In lower case, at most four characters. -/
  robin : String
  gitRemote : String
  owner : String
  dataDomain : String
  useConda : Bool
  condaEnv : String
  stage : Stage
  useVertica : Bool
  silot : String
  useInput : Bool
  inputPath : String
  useOutput : Bool
  outputPath : String
  useNas : Bool
  useGpu : Bool
  /-- Empty for a DAG that is started by hand. -/
  cron : String
  bundleBase : String
  prepareTests : Bool
  pipeline : List Step
  /-- In the order of their first mention, without repetitions. -/
  pools : List String
  deriving DecidableEq, Repr

namespace Config

/-- All tasks, step by step. -/
def tasks (c : Config) : List Task :=
  c.pipeline.flatMap Step.tasks

/-- The symbols of all tasks, step by step. -/
def symbols (c : Config) : List String :=
  c.tasks.map Task.symbol

/-- The folder of the project below the shared root: its name, and its name after its robin code. -/
def folder (c : Config) : String :=
  c.name ++ "/r_" ++ c.robin ++ "_" ++ c.name

/-- The name of the DAG's file. -/
def dagFile (c : Config) : String :=
  "dag_" ++ c.name ++ ".py"

/-- The identifier of the DAG, with an underscore for every hyphen. -/
def dagId (c : Config) : String :=
  "dag_" ++ .ofList (c.name.toList.map fun x => if x = '-' then '_' else x)

end Config

end DagScaffold
