import DagScaffold.Project.Name
import DagScaffold.Project.Payload
import DagScaffold.Text.Blank

/-!
# Validation of payloads

Validation reads a payload from front to back, notes every rule that it breaks, and gives the
project when there is none. Two tasks must not share a symbol: the first task with a usable symbol
claims it.

* `Violation` : a broken rule, with its field and its wording;
* `Payload.validate` : the project, or all broken rules in the order of the payload.
-/

namespace DagScaffold

open DagScaffold.Project

/-! ## Broken rules -/

/-- The place of a task: its step and its position there, both counted from zero. -/
structure TaskPlace where
  step : Nat
  task : Nat
  deriving DecidableEq, Repr

/-- The path of a task in a report. -/
def TaskPlace.path (p : TaskPlace) : String :=
  "pipeline[" ++ toString p.step ++ "].tasks[" ++ toString p.task ++ "]"

/-- A symbol that a task of the pipeline has claimed. -/
structure Claim where
  symbol : String
  name : String
  place : TaskPlace
  deriving DecidableEq, Repr

/-- The description of the task that holds a claim. -/
def Claim.holder (c : Claim) : String :=
  "'" ++ c.name ++ "' (" ++ c.place.path ++ ")"

/-- A rule that a payload breaks. -/
inductive Violation where
  | projectName (problem : NameProblem)
  | robinBlank
  | stageUnknown (given : String)
  | noSteps
  | noTasks (step : Nat)
  | priorityUnknown (place : TaskPlace) (given : String)
  | kindUnknown (place : TaskPlace) (given : String)
  | slotsOutOfRange (place : TaskPlace) (given : Int64)
  | taskNameBlank (place : TaskPlace)
  | taskSymbol (place : TaskPlace) (problem : Symbol.Problem)
  | symbolTaken (place : TaskPlace) (name : String) (first : Claim)
  deriving DecidableEq, Repr

namespace Violation

/-- The field of the payload that a rule speaks of. -/
def field : Violation → String
  | projectName _ => "nomprojet"
  | robinBlank => "coderobin"
  | stageUnknown _ => "stage"
  | noSteps => "pipeline"
  | noTasks step => "pipeline[" ++ toString step ++ "].tasks"
  | priorityUnknown place _ => place.path ++ ".priority"
  | kindUnknown place _ => place.path ++ ".type"
  | slotsOutOfRange place _ => place.path ++ ".pool_slots"
  | taskNameBlank place => place.path ++ ".name"
  | taskSymbol place _ => place.path ++ ".name"
  | symbolTaken place _ _ => place.path ++ ".name"

/-- The wording of a broken rule. -/
def message : Violation → String
  | projectName problem => problem.message
  | robinBlank => "robin code must not be empty"
  | stageUnknown given => Stage.unknown given
  | noSteps => "pipeline must contain at least one step"
  | noTasks _ => "step must contain at least one task"
  | priorityUnknown _ given => Priority.unknown given
  | kindUnknown _ given => TaskKind.unknown given
  | slotsOutOfRange _ given => PoolSlots.outOfRange given.toInt
  | taskNameBlank _ => "task name must not be empty"
  | taskSymbol _ problem => problem.message
  | symbolTaken _ name first =>
    "task '" ++ name ++ "' sanitizes to '" ++ first.symbol ++ "', which is already used by " ++
      first.holder

/-- The report of several broken rules. -/
def report (violations : List Violation) : String :=
  "Invalid project configuration: " ++
    "; ".intercalate (violations.map fun v => v.field ++ ": " ++ v.message)

/-- Whether one of the broken rules speaks of the field. -/
def concerns (violations : List Violation) (field : String) : Bool :=
  violations.any fun v => v.field = field

end Violation

/-! ## Checking a payload -/

namespace Payload

/-- The broken rules of a project's name. -/
def checkName (name : String) : List Violation :=
  if Text.isBlankText name then [.projectName .empty]
  else ((nameProblem? (normalizeName name)).map .projectName).toList

/-- The broken rule of a task's name, or the claim that the task lays to its symbol, given the
claims of the tasks before it. -/
def checkTaskName (claims : List Claim) (place : TaskPlace) (name : String) :
    Except Violation Claim :=
  if Text.isBlankText name then .error (.taskNameBlank place)
  else
    let symbol := Symbol.ofName name
    match Symbol.problem? symbol with
    | some problem => .error (.taskSymbol place problem)
    | none =>
      match claims.find? (·.symbol = symbol) with
      | some first => .error (.symbolTaken place name first)
      | none => .ok ⟨symbol, name, place⟩

/-- What checking a part of a payload gives: the broken rules, what was built, and the claims laid
so far, the first one first. -/
structure Checked (α : Type) where
  violations : List Violation
  result : α
  claims : List Claim

/-- The broken rules of a task but for its name. -/
def checkTaskFields (place : TaskPlace) (t : Task) : List Violation :=
  (if (Priority.ofName? t.priority).isSome then [] else [.priorityUnknown place t.priority]) ++
    (if (TaskKind.ofName? t.kind).isSome then [] else [.kindUnknown place t.kind]) ++
    (if (PoolSlots.ofInt? t.poolSlots.toInt).isSome then []
      else [.slotsOutOfRange place t.poolSlots])

/-- The validated task, when its priority, its kind and its slots are right. An empty pool counts as
none. -/
def Task.toTask? (t : Task) : Option DagScaffold.Task := do
  let priority ← Priority.ofName? t.priority
  let kind ← TaskKind.ofName? t.kind
  let poolSlots ← PoolSlots.ofInt? t.poolSlots.toInt
  return {
    id := t.id
    name := t.name
    imports := t.imports
    code := t.code
    priority
    poolSlots
    kind
    selectedPool := t.selectedPool.filter (· ≠ "") }

/-- Checks a task. -/
def checkTask (claims : List Claim) (place : TaskPlace) (t : Task) :
    Checked (Option DagScaffold.Task) :=
  match checkTaskName claims place t.name with
  | .error v => ⟨checkTaskFields place t ++ [v], t.toTask?, claims⟩
  | .ok claim => ⟨checkTaskFields place t, t.toTask?, claims ++ [claim]⟩

/-- Checks the tasks of a step from position `j` on. -/
def checkTasks (claims : List Claim) (i j : Nat) : List Task → Checked (List DagScaffold.Task)
  | [] => ⟨[], [], claims⟩
  | t :: ts =>
    let head := checkTask claims ⟨i, j⟩ t
    let tail := checkTasks head.claims i (j + 1) ts
    ⟨head.violations ++ tail.violations, head.result.toList ++ tail.result, tail.claims⟩

/-- Checks a step. -/
def checkStep (claims : List Claim) (i : Nat) (s : Step) : Checked DagScaffold.Step :=
  let tasks := checkTasks claims i 0 s.tasks
  ⟨(if s.tasks.isEmpty then [.noTasks i] else []) ++ tasks.violations, ⟨s.id, tasks.result⟩,
    tasks.claims⟩

/-- Checks the steps from position `i` on. -/
def checkSteps (claims : List Claim) (i : Nat) : List Step → Checked (List DagScaffold.Step)
  | [] => ⟨[], [], claims⟩
  | s :: ss =>
    let head := checkStep claims i s
    let tail := checkSteps head.claims (i + 1) ss
    ⟨head.violations ++ tail.violations, head.result :: tail.result, tail.claims⟩

/-- The broken rules of a payload but for those of its steps. -/
def checkHead (p : Payload) : List Violation :=
  checkName p.name ++ (if Text.isBlankText p.robin then [.robinBlank] else []) ++
    (if (Stage.ofName? p.stage).isSome then [] else [.stageUnknown p.stage]) ++
    (if p.pipeline.isEmpty then [.noSteps] else [])

/-- All broken rules of a payload, in its order. -/
def violations (p : Payload) : List Violation :=
  p.checkHead ++ (checkSteps [] 0 p.pipeline).violations

/-- The first mention of every text, in order, of those that are not among `seen`. -/
def firstMentions (seen : List String) : List String → List String
  | [] => []
  | s :: ss => if s ∈ seen then firstMentions seen ss else s :: firstMentions (s :: seen) ss

/-- The project that a payload without broken rules describes. -/
def toConfig (p : Payload) : Config where
  name := normalizeName p.name
  robin := normalizeRobin p.robin
  gitRemote := p.gitRemote
  owner := p.owner
  dataDomain := p.dataDomain
  useConda := p.useConda
  condaEnv := p.condaEnv
  stage := (Stage.ofName? p.stage).getD .lil
  useVertica := p.useVertica
  silot := p.silot
  useInput := p.useInput
  inputPath := p.inputPath
  useOutput := p.useOutput
  outputPath := p.outputPath
  useNas := p.useNas
  useGpu := p.useGpu
  cron := p.cron
  bundleBase := p.bundleBase
  prepareTests := p.prepareTests
  pipeline := (checkSteps [] 0 p.pipeline).result
  pools := firstMentions [] p.pools

/-- The project that a payload describes, or all the rules that it breaks. -/
def validate (p : Payload) : Except (List Violation) Config :=
  match p.violations with
  | [] => .ok p.toConfig
  | v :: vs => .error (v :: vs)

end Payload

end DagScaffold
