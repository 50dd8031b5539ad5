/-!
# The order of tasks

The steps of a pipeline run one after another. Each step that has tasks waits for the one before it,
the first one for the start of the DAG, and the end of the DAG waits for the last one.

* `Node`, `Edge` : the sides of a dependency and the dependency;
* `link` : the dependencies of the steps of a pipeline.
-/

namespace DagScaffold.Dag

/-- The task that opens a DAG. -/
def startName : String := "start"

/-- The task that closes a DAG. -/
def endName : String := "end"

/-- A side of a dependency: a task, or the tasks of a step that run in parallel. -/
inductive Node where
  | single (name : String)
  | group (names : List String)
  deriving DecidableEq, Repr

/-- A dependency: `target` runs after `source`. -/
structure Edge where
  source : Node
  target : Node
  deriving DecidableEq, Repr

namespace Node

/-- The side that the tasks of a step make up, if there is one. -/
def ofSymbols? : List String → Option Node
  | [] => none
  | [symbol] => some (single symbol)
  | symbols => some (group symbols)

/-- The tasks of a side. -/
def names : Node → List String
  | single name => [name]
  | group names => names

/-- The text of a side. -/
def text : Node → String
  | single name => name
  | group names => "[" ++ ", ".intercalate names ++ "]"

end Node

/-- The text of a dependency. -/
def Edge.text (e : Edge) : String :=
  e.source.text ++ " >> " ++ e.target.text

/-- The dependencies of the steps that come after `source`. -/
def linkFrom (source : Node) : List (List String) → List Edge
  | [] => [⟨source, .single endName⟩]
  | step :: steps =>
    match Node.ofSymbols? step with
    | none => linkFrom source steps
    | some target => ⟨source, target⟩ :: linkFrom target steps

/-- The dependencies of steps, each given by the symbols of its tasks. -/
def link (steps : List (List String)) : List Edge :=
  linkFrom (.single startName) steps

end DagScaffold.Dag
