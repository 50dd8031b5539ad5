/-!
# Symbols of tasks

A task has one symbol, which names its callable in the task module and its operator in the DAG. The
symbol is the task's name with every character that an identifier cannot hold replaced.

* `ofName` : the symbol of a name;
* `Problem`, `problem?` : why a symbol cannot stand in the generated code.
-/

namespace DagScaffold.Symbol

/-! ## From a name to a symbol -/

/-- Whether a character may stand in a symbol: a letter or digit of ASCII, or an underscore. -/
def isAllowed (c : Char) : Bool :=
  c.isAlphanum || c = '_'

/-- The character that stands for `c` in a symbol. -/
def clean (c : Char) : Char :=
  if isAllowed c then c else '_'

/-- The symbol of a name. -/
def ofName (name : String) : String :=
  .ofList (name.toList.map clean)

/-! ## Symbols that cannot be used -/

/-- The words that the generated language keeps for itself. -/
def keywords : List String :=
  ["False", "None", "True", "and", "as", "assert", "async", "await", "break", "class", "continue",
    "def", "del", "elif", "else", "except", "finally", "for", "from", "global", "if", "import",
    "in", "is", "lambda", "nonlocal", "not", "or", "pass", "raise", "return", "try", "while",
    "with", "yield"]

/-- The names that the generated DAG binds for itself. -/
def reserved : List String :=
  ["DAG", "DummyOperator", "PythonOperator", "custom_env_name", "dag", "datetime", "default_args",
    "end", "schedule_interval", "start"]

/-- Why a symbol cannot stand in the generated code. -/
inductive Problem where
  | empty
  | startsWithDigit (symbol : String)
  | keyword (symbol : String)
  | reserved (symbol : String)
  deriving DecidableEq, Repr

/-- The first problem of a symbol, if it has one. -/
def problem? (symbol : String) : Option Problem :=
  match symbol.toList with
  | [] => some .empty
  | c :: _ =>
    if c.isDigit then some (.startsWithDigit symbol)
    else if symbol ∈ keywords then some (.keyword symbol)
    else if symbol ∈ reserved then some (.reserved symbol)
    else none

/-- The wording of a problem. -/
def Problem.message : Problem → String
  | empty => "sanitizes to an empty symbol"
  | startsWithDigit s => "symbol '" ++ s ++ "' must not start with a digit"
  | keyword s => "symbol '" ++ s ++ "' is a Python keyword"
  | reserved s => "symbol '" ++ s ++ "' is reserved by the generated DAG"

end DagScaffold.Symbol
