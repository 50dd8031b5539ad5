import DagScaffold.Dag.Literal
import DagScaffold.Project.Config
import DagScaffold.Text.Blank

/-!
# The task module

The module with the functions that the operators of a DAG call: the imports of all tasks, and one
function for each task with the task's code as its body.

* `importLines` : the imports, sorted and without repetitions;
* `callable` : the function of a task;
* `file` : the text of the module.
-/

namespace DagScaffold.TaskModule

/-- The path of the module in the folder of its project. -/
def path : List String := ["src", "treatment.py"]

/-! ## Imports -/

/-- Puts a line into a sorted list of lines unless it is there. -/
def insertLine (line : String) : List String → List String
  | [] => [line]
  | l :: ls =>
    if line < l then line :: l :: ls
    else if line = l then l :: ls
    else l :: insertLine line ls

/-- The lines in ascending order of their characters, without repetitions. -/
def sortLines (lines : List String) : List String :=
  lines.foldr insertLine []

/-- The import lines of a task, without the blanks around them and without blank lines. -/
def taskImports (task : Task) : List String :=
  ((Text.lines task.imports).map Text.trim).filter (· ≠ "")

/-- The import lines of all tasks of a project. -/
def importLines (config : Config) : List String :=
  sortLines (config.tasks.flatMap taskImports)

/-! ## Functions -/

/-- The text within a docstring: backslashes are doubled, and three quotes in a row have a backslash
each. -/
def docstringChars : List Char → List Char
  | [] => []
  | '"' :: '"' :: '"' :: cs => '\\' :: '"' :: '\\' :: '"' :: '\\' :: '"' :: docstringChars cs
  | c :: cs => if c = '\\' then '\\' :: '\\' :: docstringChars cs else c :: docstringChars cs

/-- The text within a docstring. -/
def docstringText (s : String) : String :=
  .ofList (docstringChars s.toList)

/-- A line of code in a body. A blank line stays empty. -/
def bodyLine (line : String) : String :=
  if Text.isBlankText line then "" else indentation ++ line

/-- The lines of a body with the given code, which is never empty. -/
def body (code : String) : List String :=
  if Text.isBlankText code then [indentation ++ "pass"]
  else (Text.lines (Text.trimEnd code)).map bodyLine

/-- The lines of a function before its body. -/
def head (task : Task) : List String :=
  ["def " ++ task.symbol ++ "(**context):",
    indentation ++ "\"\"\"",
    indentation ++ "Task: " ++ docstringText task.name,
    indentation ++ "Priority: " ++ task.priority.name,
    indentation ++ "Pool Slots: " ++ toString task.poolSlots.count,
    indentation ++ "\"\"\""]

/-- The text of a task's function. -/
def callable (task : Task) : String :=
  "\n".intercalate (head task ++ body task.code) ++ "\n"

/-! ## The module -/

/-- The imports and the blank line after them. -/
def importBlock (lines : List String) : String :=
  if lines.isEmpty then "" else "\n".intercalate lines ++ "\n\n"

/-- The text of the module. -/
def file (config : Config) : String :=
  importBlock (importLines config) ++ "\n\n".intercalate (config.tasks.map callable)

end DagScaffold.TaskModule
