import DagScaffold.Dag.Statement
import DagScaffold.Project.Config
import DagScaffold.Settings

/-!
# The DAG file of a project

The statements of a project's DAG: the imports, the configuration, the operators of its tasks and
the order in which they run.

* `poolOf`, `Operator.ofTask` : the pool and the operator of a task;
* `statements`, `file` : the statements and the text of the file.
-/

namespace DagScaffold.Dag

/-- The module of the functions that the operators call. -/
def taskModuleName : String := "src.treatment"

/-- The name that the schedule is assigned to. -/
def scheduleVariable : String := "schedule_interval"

/-- The pool of a task: its own, else the first of its project, else the default one. -/
def poolOf (task : Task) (pools : List String) (defaultPool : String) : String :=
  (task.selectedPool <|> pools.head?).getD defaultPool

/-- The operator of a task. -/
def Operator.ofTask (task : Task) (pools : List String) (defaultPool : String) : Operator where
  symbol := task.symbol
  priorityWeight := task.priority.weight
  pool := poolOf task pools defaultPool
  poolSlots := task.poolSlots.count

/-- The import of the functions with the given names. -/
def taskImport (symbols : List String) : List Statement :=
  if symbols.isEmpty then []
  else [.importLine ("from " ++ taskModuleName ++ " import " ++ ", ".intercalate symbols)]

/-- The imports of a DAG file. -/
def imports (config : Config) : List Statement :=
  [.importLine "from airflow import DAG",
    .importLine "from airflow.operators.dummy import DummyOperator",
    .importLine "from airflow.operators.python import PythonOperator",
    .importLine "from datetime import datetime"] ++ taskImport config.symbols

/-- The environment that a DAG names: the project's own, or the default one when it does without. -/
def environmentName (settings : Settings) (config : Config) : String :=
  if config.useConda then config.condaEnv else settings.defaultEnvName

/-- The schedule of a DAG as an expression. -/
def schedule (config : Config) : String :=
  if config.cron = "" then "None" else double config.cron

/-- The statements between the imports and the operators. -/
def header (settings : Settings) (config : Config) : List Statement :=
  [.blank,
    .comment "--- Configuration ---",
    .assign "custom_env_name" (double (environmentName settings config)),
    .assign scheduleVariable (schedule config),
    .blank,
    .defaultArgs config.owner settings.startDate,
    .blank,
    .openDag config.dagId scheduleVariable,
    .blank,
    .sentinel startName,
    .sentinel endName,
    .blank]

/-- The operators of a project, a blank line after each. -/
def operators (settings : Settings) (config : Config) : List Statement :=
  config.tasks.flatMap fun task =>
    [.operator (.ofTask task config.pools settings.defaultPool), .blank]

/-- The order of the tasks of a project. -/
def flow (config : Config) : List Statement :=
  .comment "Pipeline Flow" :: (link (config.pipeline.map Step.symbols)).map .edge

/-- The statements of a project's DAG file. -/
def statements (settings : Settings) (config : Config) : List Statement :=
  imports config ++ header settings config ++ operators settings config ++ flow config

/-- The text of a project's DAG file. -/
def file (settings : Settings) (config : Config) : String :=
  render (statements settings config)

end DagScaffold.Dag
