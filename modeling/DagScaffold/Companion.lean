import DagScaffold.Project.Config
import DagScaffold.ProjectFile

/-!
# Companion files

The files next to the manifest, the DAG and the task module: a description, the delivery pipeline,
an ignore list and what the environment of the project calls for.

* `files` : the companion files in the order of writing.
-/

namespace DagScaffold.Companion

/-- The description of a project. -/
def readme (config : Config) : String :=
  "# " ++ config.name ++ "\n\nGenerated by dag-forge\n\n## Project Info\n- Owner: " ++
    config.owner ++ "\n- Stage: " ++ config.stage.name ++ "\n- LD Data: " ++ config.dataDomain ++
    "\n\n## Deployment\nFollow the GitOps workflow in the Deployment Cockpit.\n"

/-- The delivery pipeline of a project. -/
def delivery (config : Config) : String :=
  "stages:\n  - build\n  - deploy\n\nbuild:\n  stage: build\n  script: echo \"Building...\"\n\n" ++
    "deploy:\n  stage: deploy\n  component: " ++ config.name ++
      "\n  script: echo \"Deploying...\"\n"

/-- The ignore list. -/
def ignoreList : String :=
  ".DS_Store\n__pycache__/\n*.pyc\n.env\n.ipynb_checkpoints/\n"

/-- The packages of an environment of the project's own. -/
def condaRequirements : String :=
  "# Conda requirements\npandas\nnumpy\n"

/-- The configuration of a project that prepares tests. -/
def testConfiguration : String :=
  "load_examples = False\n"

/-- The file for the environment: the packages of an own one, else the bundle if there is one. -/
def environmentFiles (config : Config) : List ProjectFile :=
  if config.useConda then [⟨["airflow-python-311.txt"], condaRequirements⟩]
  else if config.bundleBase ≠ "" then [⟨["BUNDLE_AIRFLOW.txt"], config.bundleBase ++ "\n"⟩]
  else []

/-- The companion files of a project. -/
def files (config : Config) : List ProjectFile :=
  [⟨["src", "__init__.py"], ""⟩,
    ⟨["README.md"], readme config⟩,
    ⟨[".gitignore"], ignoreList⟩,
    ⟨[".cicd", "pipeline.cicd.yaml"], delivery config⟩] ++ environmentFiles config ++
    (if config.prepareTests then [⟨["airflow.cfg"], testConfiguration⟩] else [])

end DagScaffold.Companion
