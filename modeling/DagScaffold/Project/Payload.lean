import DagScaffold.Json.Decode
import DagScaffold.Json.Reader
import DagScaffold.Project.Config

/-!
# Payloads

A payload is a project as a caller sends it. Names of priorities, stages and kinds are plain texts
and the number of pool slots is any integer of 64 bits, so that a wrong one becomes an entry of the
report of validation.

* `Payload`, `Payload.Step`, `Payload.Task` : the records, with their defaults;
* `Payload.reading` : how to read one in any notation;
* `Payload.toJson` : its JSON value;
* `Payload.ofConfig` : the payload of a validated project.
-/

namespace DagScaffold

open DagScaffold.Record

namespace Payload

/-! ## The records -/

/-- The environment of a project that names none. -/
def defaultCondaEnv : String := "airflow-ml-3.11"

/-- The silo of a project that names none. -/
def defaultSilot : String := "BANK"

/-- The body of a task that comes without one. -/
def defaultCode : String := "# Add your logic here..."

/-- A task as a caller sends it. -/
structure Task where
  id : String := ""
  name : String := ""
  imports : String := ""
  code : String := defaultCode
  priority : String := "low"
  poolSlots : Int64 := 1
  kind : String := "python"
  selectedPool : Option String := none
  deriving DecidableEq, Repr

/-- A step as a caller sends it. -/
structure Step where
  id : String := ""
  tasks : List Task := []
  deriving DecidableEq, Repr

end Payload

/-- A project as a caller sends it. -/
structure Payload where
  name : String := ""
  robin : String := ""
  gitRemote : String := ""
  owner : String := ""
  dataDomain : String := ""
  useConda : Bool := false
  condaEnv : String := Payload.defaultCondaEnv
  stage : String := "LIL"
  useVertica : Bool := false
  silot : String := Payload.defaultSilot
  useInput : Bool := false
  inputPath : String := ""
  useOutput : Bool := false
  outputPath : String := ""
  useNas : Bool := false
  useGpu : Bool := false
  cron : String := ""
  bundleBase : String := ""
  prepareTests : Bool := false
  pipeline : List Payload.Step := []
  pools : List String := []
  deriving DecidableEq, Repr

namespace Payload

/-! ## Reading -/

section Reading

variable {R : Type → Type} [Reading R]

/-- Reads a task. -/
def Task.reading : R Task :=
  Reading.record "TaskPayload" {}
    [.of "id" Reading.text fun v t => { t with id := v },
      .of "name" Reading.text fun v t => { t with name := v },
      .of "imports" Reading.text fun v t => { t with imports := v },
      .of "code" Reading.text fun v t => { t with code := v },
      .of "priority" Reading.text fun v t => { t with priority := v },
      .of "pool_slots" Reading.integer fun v t => { t with poolSlots := v },
      .of "type" Reading.text fun v t => { t with kind := v },
      .of "selected_pool" (Reading.optional Reading.text) fun v t => { t with selectedPool := v }]

/-- Reads a step. -/
def Step.reading : R Step :=
  Reading.record "StepPayload" {}
    [.of "id" Reading.text fun v s => { s with id := v },
      .of "tasks" (Reading.list Task.reading) fun v s => { s with tasks := v }]

/-- Reads a payload. -/
def reading : R Payload :=
  Reading.record "ProjectPayload" {}
    [.of "nomprojet" Reading.text fun v p => { p with name := v },
      .of "coderobin" Reading.text fun v p => { p with robin := v },
      .of "git_remote" Reading.text fun v p => { p with gitRemote := v },
      .of "persoid" Reading.text fun v p => { p with owner := v },
      .of "lddata" Reading.text fun v p => { p with dataDomain := v },
      .of "use_conda" Reading.flag fun v p => { p with useConda := v },
      .of "condaenv" Reading.text fun v p => { p with condaEnv := v },
      .of "stage" Reading.text fun v p => { p with stage := v },
      .of "use_vertica" Reading.flag fun v p => { p with useVertica := v },
      .of "silot" Reading.text fun v p => { p with silot := v },
      .of "use_input" Reading.flag fun v p => { p with useInput := v },
      .of "datalab_in" Reading.text fun v p => { p with inputPath := v },
      .of "use_output" Reading.flag fun v p => { p with useOutput := v },
      .of "datalab_out" Reading.text fun v p => { p with outputPath := v },
      .of "use_nas" Reading.flag fun v p => { p with useNas := v },
      .of "use_gpu" Reading.flag fun v p => { p with useGpu := v },
      .of "cron" Reading.text fun v p => { p with cron := v },
      .of "bundle_base" Reading.text fun v p => { p with bundleBase := v },
      .of "prepare_tests" Reading.flag fun v p => { p with prepareTests := v },
      .of "pipeline" (Reading.list Step.reading) fun v p => { p with pipeline := v },
      .of "pools" (Reading.list Reading.text) fun v p => { p with pools := v }]

end Reading

/-- Reads a payload from a JSON text. -/
def ofJsonText (s : String) : Except Json.Failure Payload :=
  Json.Reader.run reading s

/-- Reads a payload from a JSON value. -/
def ofJson (v : Json.Value) : Except Mismatch Payload :=
  (reading : Json.Decoder Payload) v

/-! ## Printing -/

/-- The JSON value of a task; the pool is left out when the task asks for none. -/
def Task.toJson (t : Task) : Json.Value :=
  .object
    ([("id", .text t.id), ("name", .text t.name), ("imports", .text t.imports),
        ("code", .text t.code), ("priority", .text t.priority),
        ("pool_slots", .number (.integer t.poolSlots.toInt)), ("type", .text t.kind)] ++
      (t.selectedPool.map fun pool => ("selected_pool", Json.Value.text pool)).toList)

/-- The JSON value of a step. -/
def Step.toJson (s : Step) : Json.Value :=
  .object [("id", .text s.id), ("tasks", .list (s.tasks.map Task.toJson))]

/-- The JSON value of a payload. -/
def toJson (p : Payload) : Json.Value :=
  .object
    [("nomprojet", .text p.name), ("coderobin", .text p.robin), ("git_remote", .text p.gitRemote),
      ("persoid", .text p.owner), ("lddata", .text p.dataDomain), ("use_conda", .flag p.useConda),
      ("condaenv", .text p.condaEnv), ("stage", .text p.stage), ("use_vertica", .flag p.useVertica),
      ("silot", .text p.silot), ("use_input", .flag p.useInput), ("datalab_in", .text p.inputPath),
      ("use_output", .flag p.useOutput), ("datalab_out", .text p.outputPath),
      ("use_nas", .flag p.useNas), ("use_gpu", .flag p.useGpu), ("cron", .text p.cron),
      ("bundle_base", .text p.bundleBase), ("prepare_tests", .flag p.prepareTests),
      ("pipeline", .list (p.pipeline.map Step.toJson)), ("pools", .list (p.pools.map .text))]

/-! ## The payload of a validated project -/

/-- The payload of a validated task. -/
def Task.ofTask (t : DagScaffold.Task) : Task where
  id := t.id
  name := t.name
  imports := t.imports
  code := t.code
  priority := t.priority.name
  poolSlots := Int64.ofNat t.poolSlots.count
  kind := t.kind.name
  selectedPool := t.selectedPool

/-- The payload of a validated step. -/
def Step.ofStep (s : DagScaffold.Step) : Step where
  id := s.id
  tasks := s.tasks.map Task.ofTask

/-- The payload of a validated project. -/
def ofConfig (c : Config) : Payload where
  name := c.name
  robin := c.robin
  gitRemote := c.gitRemote
  owner := c.owner
  dataDomain := c.dataDomain
  useConda := c.useConda
  condaEnv := c.condaEnv
  stage := c.stage.name
  useVertica := c.useVertica
  silot := c.silot
  useInput := c.useInput
  inputPath := c.inputPath
  useOutput := c.useOutput
  outputPath := c.outputPath
  useNas := c.useNas
  useGpu := c.useGpu
  cron := c.cron
  bundleBase := c.bundleBase
  prepareTests := c.prepareTests
  pipeline := c.pipeline.map Step.ofStep
  pools := c.pools

end Payload

end DagScaffold
