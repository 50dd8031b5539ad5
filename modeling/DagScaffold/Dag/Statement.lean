import DagScaffold.Calendar
import DagScaffold.Dag.Literal
import DagScaffold.Dag.Schedule

/-!
# Statements of a DAG file

A DAG file is a list of statements. Each stands on lines of its own; those after the one that opens
the DAG belong to its block and are indented.

* `Statement` : the statements;
* `Statement.lines` : the lines of one;
* `render` : the text of a list of statements.
-/

namespace DagScaffold.Dag

/-- The operator of a task. Its symbol names the operator, the task and the function that it
calls. -/
structure Operator where
  symbol : String
  priorityWeight : Nat
  pool : String
  poolSlots : Nat
  deriving DecidableEq, Repr

/-- A statement of a DAG file. -/
inductive Statement where
  | importLine (line : String)
  | blank
  | comment (text : String)
  | assign (target expression : String)
  | defaultArgs (owner : String) (startDate : Date)
  /-- Opens the block of the DAG. -/
  | openDag (dagId scheduleVariable : String)
  /-- An operator without work, which opens or closes the DAG. -/
  | sentinel (name : String)
  | operator (operator : Operator)
  | edge (edge : Edge)
  deriving DecidableEq, Repr

namespace Statement

/-- The lines of an operator within its block. -/
def operatorLines (op : Operator) : List String :=
  [op.symbol ++ " = PythonOperator(",
    indentation ++ "task_id=" ++ single op.symbol ++ ",",
    indentation ++ "python_callable=" ++ op.symbol ++ ",",
    indentation ++ "priority_weight=" ++ toString op.priorityWeight ++ ",",
    indentation ++ "pool=" ++ single op.pool ++ ",",
    indentation ++ "pool_slots=" ++ toString op.poolSlots ++ ",",
    indentation ++ "dag=dag",
    ")"]

/-- The date as a call of the generated language. -/
def dateCall (d : Date) : String :=
  "datetime(" ++ toString d.year ++ ", " ++ toString d.month ++ ", " ++ toString d.day ++ ")"

/-- The indentation of the arguments that open a DAG. -/
def openDagIndentation : String := "         "

/-- The lines of a statement before its block is taken into account. -/
def bareLines : Statement → List String
  | importLine line => [line]
  | blank => [""]
  | comment text => ["# " ++ text]
  | assign target expression => [target ++ " = " ++ expression]
  | defaultArgs owner startDate =>
    ["default_args = \x7b",
      indentation ++ "'owner': " ++ single owner ++ ",",
      indentation ++ "'start_date': " ++ dateCall startDate ++ ",",
      "\x7d"]
  | openDag dagId scheduleVariable =>
    ["with DAG(" ++ single dagId ++ ",",
      openDagIndentation ++ "default_args=default_args,",
      openDagIndentation ++ "schedule_interval=" ++ scheduleVariable ++ ",",
      openDagIndentation ++ "catchup=False) as dag:"]
  | sentinel name => [name ++ " = DummyOperator(task_id=" ++ single name ++ ")"]
  | operator op => operatorLines op
  | edge e => [e.text]

/-- The lines of a statement at an indentation; a blank line has none. -/
def lines (indent : String) : Statement → List String
  | blank => [""]
  | s => s.bareLines.map (indent ++ ·)

/-- The indentation after a statement. -/
def indentAfter (indent : String) : Statement → String
  | openDag _ _ => indentation
  | _ => indent

end Statement

/-- The lines of statements of which the first stands at the given indentation. -/
def linesFrom (indent : String) : List Statement → List String
  | [] => []
  | s :: ss => s.lines indent ++ linesFrom (s.indentAfter indent) ss

/-- The text of lines, each of which ends in a line feed. -/
def textOfLines (lines : List String) : String :=
  String.join (lines.map (· ++ "\n"))

/-- The text of a DAG file. -/
def render (statements : List Statement) : String :=
  textOfLines (linesFrom "" statements)

end DagScaffold.Dag
