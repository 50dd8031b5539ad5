import DagScaffold.Manifest.Reader
import DagScaffold.Project.Name
import DagScaffold.Project.Payload

/-!
# Projects from manifests

A manifest holds the settings of a project but neither its tasks nor its schedule. The payload made
from it takes toggles from the keys that are there and has a single task in place of the lost ones.

* `robinOfFolder?` : the robin code in the folder of a project;
* `toPayload` : the payload of a manifest.
-/

namespace DagScaffold.Manifest

/-- The robin code of a folder that has none. -/
def unknownRobin : String := "unkn"

/-- The owner of a project whose manifest names none. -/
def defaultOwner : String := "jovyan"

/-- The task in place of the lost ones. -/
def placeholder : Payload.Task where
  id := "t1"
  name := "extract_data"
  code := "# Loaded from treatment.py"

/-! ## The robin code -/

/-- The text after a front part, if it has one. -/
def afterFront? : List Char → List Char → Option (List Char)
  | [], cs => some cs
  | _ :: _, [] => none
  | e :: es, c :: cs => if e = c then afterFront? es cs else none

/-- What stands before and after the first occurrence of `mark`. -/
def splitAtFirst? (mark : List Char) : List Char → Option (List Char × List Char)
  | [] => (afterFront? mark []).map fun rest => ([], rest)
  | c :: cs =>
    match afterFront? mark (c :: cs) with
    | some rest => some ([], rest)
    | none => (splitAtFirst? mark cs).map fun r => (c :: r.1, r.2)

/-- The text without an end part, if it has one. -/
def beforeEnd? (tail cs : List Char) : Option (List Char) :=
  (afterFront? tail.reverse cs.reverse).map List.reverse

/-- The robin code in the second part of a folder: what stands before an underscore and the name of
the project, or before the first underscore if the project has another name there. -/
def robinPart (project rest : List Char) : List Char :=
  (beforeEnd? ('_' :: project) rest).getD (rest.takeWhile (· ≠ '_'))

/-- The robin code of a folder. -/
def robinOfFolder? (folder : String) : Option String :=
  (splitAtFirst? ['/', 'r', '_'] folder.toList).bind fun parts =>
    let robin := robinPart parts.1 parts.2
    if robin.isEmpty then none else some (Project.normalizeRobin (.ofList robin))

/-! ## The payload -/

/-- The payload of a project with the given name whose manifest is `m`. -/
def toPayload (name : String) (m : Manifest) : Payload where
  name := name
  robin := (m.folder.bind robinOfFolder?).getD unknownRobin
  owner := (m.owner.filter (· ≠ "")).getD defaultOwner
  dataDomain := (m.dataDomain.map Text.toLower).getD ""
  useConda := m.envName.isSome
  condaEnv := m.envName.getD Payload.defaultCondaEnv
  stage := m.stage.getD "LIL"
  useVertica := m.silot.isSome
  silot := m.silot.getD Payload.defaultSilot
  useInput := m.inputFolder.isSome
  inputPath := m.inputFolder.getD ""
  useOutput := m.outputFolder.isSome
  outputPath := m.outputFolder.getD ""
  useNas := m.nas
  useGpu := m.gpu
  pipeline := [{ id := "s1", tasks := [placeholder] }]
  pools := m.pools

end DagScaffold.Manifest
