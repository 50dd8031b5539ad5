import DagScaffold.Text.Blank
import DagScaffold.Yaml.Reader

/-!
# Reading manifests

A manifest is read leniently: a number or a flag in the place of a text counts as its text, and a
value of any other kind as none. A blank text is a manifest without keys.

* `Manifest` : what a manifest records;
* `Manifest.read` : reading one.
-/

namespace DagScaffold

/-- What a manifest records. -/
structure Manifest where
  folder : Option String := none
  stage : Option String := none
  dataDomain : Option String := none
  owner : Option String := none
  pools : List String := []
  silot : Option String := none
  envName : Option String := none
  inputFolder : Option String := none
  outputFolder : Option String := none
  nas : Bool := false
  gpu : Bool := false
  deriving DecidableEq, Repr

namespace Manifest

/-- The value of a key; of two the later one counts. -/
def valueOf (entries : List (String × Yaml.Value)) (key : String) : Option Yaml.Value :=
  entries.reverse.lookup key

/-- The text of a key. -/
def textOf (entries : List (String × Yaml.Value)) (key : String) : Option String :=
  (valueOf entries key).bind Yaml.Value.spelling?

/-- Whether a key has the flag for yes. -/
def flagOf (entries : List (String × Yaml.Value)) (key : String) : Bool :=
  match valueOf entries key with
  | some (.flag b) => b
  | _ => false

/-- The texts of a list; items of other kinds are left out. -/
def listOf (entries : List (String × Yaml.Value)) (key : String) : List String :=
  match valueOf entries key with
  | some (.list items) => items.filterMap Yaml.Value.spelling?
  | _ => []

/-- What the entries of a manifest record. -/
def ofEntries (entries : List (String × Yaml.Value)) : Manifest where
  folder := textOf entries "folder"
  stage := textOf entries "stage"
  dataDomain := textOf entries "ld_data"
  owner := textOf entries "persoid"
  pools := listOf entries "pools"
  silot := textOf entries "silot"
  envName := textOf entries "env_name"
  inputFolder := textOf entries "input_folder"
  outputFolder := textOf entries "output_folder"
  nas := flagOf entries "NAS"
  gpu := flagOf entries "GPU"

/-- Reads the text of a manifest. -/
def read (s : String) : Except Yaml.Fault Manifest :=
  if Text.isBlankText s then .ok {} else (Yaml.Reader.entries.run s).map ofEntries

end Manifest

end DagScaffold
