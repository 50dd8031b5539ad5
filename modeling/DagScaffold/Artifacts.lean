import DagScaffold.Companion
import DagScaffold.Dag.File
import DagScaffold.Manifest.Writer
import DagScaffold.TaskModule

/-!
# All files of a project

* `projectFiles` : every file of a project's folder in the order of writing.
-/

namespace DagScaffold

/-- The files of a project. -/
def projectFiles (settings : Settings) (config : Config) : List ProjectFile :=
  [⟨[Manifest.fileName], Manifest.write settings config⟩,
    ⟨[config.dagFile], Dag.file settings config⟩,
    ⟨TaskModule.path, TaskModule.file config⟩] ++ Companion.files config

end DagScaffold
