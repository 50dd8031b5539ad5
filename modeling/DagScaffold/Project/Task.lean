import DagScaffold.Symbol

/-!
# Tasks and steps

The parts of a validated pipeline: tasks with their scheduling data, and steps of tasks that run in
parallel.

* `Priority`, `Stage`, `TaskKind` : closed sets of names, each with its spelling and weight;
* `PoolSlots` : a count between one and five;
* `Task`, `Step` : the pipeline.
-/

namespace DagScaffold

/-! ## Priority -/

/-- The scheduling priority of a task. -/
inductive Priority where
  | high
  | mid
  | low
  deriving DecidableEq, Repr

namespace Priority

/-- The spelling of a priority. -/
def name : Priority → String
  | high => "high"
  | mid => "mid"
  | low => "low"

/-- The weight of a priority in the schedule. -/
def weight : Priority → Nat
  | high => 3
  | mid => 2
  | low => 1

/-- Every priority with its spelling. -/
def named : List (String × Priority) :=
  [high, mid, low].map fun p => (p.name, p)

/-- The priority that is spelled so. -/
def ofName? (s : String) : Option Priority :=
  named.lookup s

/-- What is said of a text that spells no priority. -/
def unknown (s : String) : String :=
  "unknown priority '" ++ s ++ "', expected high, mid or low"

end Priority

/-! ## Stage -/

/-- The deployment stage of a project. -/
inductive Stage where
  | lil
  | sxb
  deriving DecidableEq, Repr

namespace Stage

/-- The spelling of a stage. -/
def name : Stage → String
  | lil => "LIL"
  | sxb => "SXB"

/-- Every stage with its spelling. -/
def named : List (String × Stage) :=
  [lil, sxb].map fun s => (s.name, s)

/-- The stage that is spelled so. -/
def ofName? (s : String) : Option Stage :=
  named.lookup s

/-- What is said of a text that spells no stage. -/
def unknown (s : String) : String :=
  "unknown stage '" ++ s ++ "', expected LIL or SXB"

end Stage

/-! ## Kind of a task -/

/-- The kind of a task's body. Every kind is generated alike. -/
inductive TaskKind where
  | python
  | bash
  | dummy
  deriving DecidableEq, Repr

namespace TaskKind

/-- The spelling of a kind. -/
def name : TaskKind → String
  | python => "python"
  | bash => "bash"
  | dummy => "dummy"

/-- Every kind with its spelling. -/
def named : List (String × TaskKind) :=
  [python, bash, dummy].map fun k => (k.name, k)

/-- The kind that is spelled so. -/
def ofName? (s : String) : Option TaskKind :=
  named.lookup s

/-- What is said of a text that spells no kind. -/
def unknown (s : String) : String :=
  "unknown task type '" ++ s ++ "', expected python, bash or dummy"

end TaskKind

/-! ## Pool slots -/

/-- The number of slots that a task takes in its pool, from one to five. -/
structure PoolSlots where
  count : Nat
  one_le : 1 ≤ count := by decide
  le_five : count ≤ 5 := by decide
  deriving DecidableEq, Repr

namespace PoolSlots

/-- One slot. -/
def one : PoolSlots :=
  { count := 1 }

/-- The slots that an integer counts, if it is in the range. -/
def ofInt? (n : Int) : Option PoolSlots :=
  if h : 1 ≤ n.toNat ∧ n.toNat ≤ 5 then some ⟨n.toNat, h.1, h.2⟩ else none

/-- What is said of an integer outside the range. -/
def outOfRange (n : Int) : String :=
  "pool_slots must be between 1 and 5, got " ++ toString n

end PoolSlots

/-! ## The pipeline -/

/-- A unit of generated work. -/
structure Task where
  id : String
  /-- The display name, from which the symbol is made. -/
  name : String
  /-- Import statements, one a line. -/
  imports : String
  code : String
  priority : Priority
  poolSlots : PoolSlots
  kind : TaskKind
  /-- The pool that the task asks for instead of the project's first one. -/
  selectedPool : Option String
  deriving DecidableEq, Repr

/-- The symbol of a task's callable and operator. -/
def Task.symbol (t : Task) : String :=
  Symbol.ofName t.name

/-- Tasks that run in parallel; steps run one after another. -/
structure Step where
  id : String
  tasks : List Task
  deriving DecidableEq, Repr

/-- The symbols of a step's tasks in their order. -/
def Step.symbols (s : Step) : List String :=
  s.tasks.map Task.symbol

end DagScaffold
