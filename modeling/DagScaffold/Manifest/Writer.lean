import DagScaffold.Project.Config
import DagScaffold.Settings
import DagScaffold.Text.Case
import DagScaffold.Yaml.Written

/-!
# Writing manifests

The manifest of a project holds its settings, one key a line in a fixed order. A key that depends on
a toggle is there when the toggle is on and its value is not empty.

* `entries` : the keys and values of a manifest;
* `write` : the text of a manifest.
-/

namespace DagScaffold.Manifest

/-- The name of a manifest's file. -/
def fileName : String := "meta.yaml"

/-- A key of a manifest with its value: a text, a word of the format, or a list of texts. -/
inductive Entry where
  | text (key value : String)
  | word (key value : String)
  | list (key : String) (items : List String)
  deriving DecidableEq, Repr

/-- The indentation of the further lines of an item. -/
def itemIndentation : String := "    "

/-- The text of an entry without the line feed at its end. -/
def Entry.render : Entry → String
  | text key value => key ++ ": " ++ Yaml.written "" value
  | word key value => key ++ ": " ++ value
  | list key items =>
    "\n".intercalate
      ((key ++ ":") :: items.map fun item => "  - " ++ Yaml.written itemIndentation item)

/-- A text that is written when its toggle is on and it is not empty. -/
def optionalText (toggle : Bool) (key value written : String) : List Entry :=
  if toggle && value ≠ "" then [.text key written] else []

/-- A flag that is written when it is on. -/
def optionalFlag (flag : Bool) (key : String) : List Entry :=
  if flag then [.word key "true"] else []

/-- The entries of a project's manifest. -/
def entries (settings : Settings) (config : Config) : List Entry :=
  [.text "folder" config.folder,
    .word "stage" config.stage.name,
    .text "ld_data" (Text.toUpper config.dataDomain),
    .text "persoid" config.owner] ++
    (if config.pools.isEmpty then [] else [.list "pools" config.pools]) ++
    optionalText config.useVertica "silot" config.silot config.silot ++
    optionalText config.useConda "env_name" config.condaEnv config.condaEnv ++
    optionalText config.useInput "input_folder" config.inputPath
      (settings.dataPath config.inputPath) ++
    optionalText config.useOutput "output_folder" config.outputPath
      (settings.dataPath config.outputPath) ++
    optionalFlag config.useNas "NAS" ++
    optionalFlag config.useGpu "GPU"

/-- The text of a project's manifest. -/
def write (settings : Settings) (config : Config) : String :=
  "\n".intercalate ((entries settings config).map Entry.render) ++ "\n"

end DagScaffold.Manifest
