import DagScaffold.Decimal.Shortest
import DagScaffold.Text.Visible

/-!
# Why a value does not fit a record

A reader of records expects a value of some kind in every place. A `Mismatch` says what stands there
instead, or which rule of the record the value breaks, and `Mismatch.message` words it.
-/

namespace DagScaffold.Record

open DagScaffold.Decimal

/-! ## Kinds of values -/

/-- A value that a reader found, as far as a report describes it. -/
inductive Found where
  | null
  | flag (value : Bool)
  | integer (value : Int)
  | fraction (value : Binary64)
  | text (value : String)
  | list
  | map
  deriving DecidableEq, Repr

/-- What a reader expected in a place. -/
inductive Expected where
  | text
  | flag
  | integer
  | list
  | record (name : String)
  | choice
  deriving DecidableEq, Repr

/-- Why a value does not fit. -/
inductive Mismatch where
  | wrongKind (found : Found) (expected : Expected)
  /-- An integer beyond 64 bits with a sign. -/
  | integerTooLarge (value : Int)
  | duplicateField (name : String)
  /-- A list with more elements than the record has fields. -/
  | surplusElements (length : Nat)
  | unknownChoice (given : String) (choices : List String)
  /-- A value that breaks a rule of its own type, which is given in words. -/
  | refused (rule : String)
  deriving DecidableEq, Repr

/-! ## Wording -/

/-- Floating point numbers in a report have a sign before a positive exponent. -/
def reportStyle : FloatStyle :=
  ⟨true⟩

namespace Found

/-- The description of a value in a report. -/
def describe : Found → String
  | null => "null"
  | flag b => "boolean `" ++ (if b then "true" else "false") ++ "`"
  | integer n => "integer `" ++ toString n ++ "`"
  | fraction x => "floating point `" ++ reportStyle.render x ++ "`"
  | text s => "string " ++ Text.quotation s
  | list => "sequence"
  | map => "map"

end Found

namespace Expected

/-- The description of an expectation in a report. -/
def describe : Expected → String
  | text => "a string"
  | flag => "a boolean"
  | integer => "i64"
  | list => "a sequence"
  | record name => "struct " ++ name
  | choice => "string or map"

end Expected

/-- The choices of a report, each between back quotes. -/
def describeChoices (choices : List String) : String :=
  let quoted := choices.map fun c => "`" ++ c ++ "`"
  match quoted with
  | [] => "no choice"
  | [a] => a
  | [a, b] => a ++ " or " ++ b
  | _ => "one of " ++ ", ".intercalate quoted

namespace Mismatch

/-- The wording of a mismatch. -/
def message : Mismatch → String
  | wrongKind found expected =>
    "invalid type: " ++ found.describe ++ ", expected " ++ expected.describe
  | integerTooLarge n => "invalid value: integer `" ++ toString n ++ "`, expected i64"
  | duplicateField name => "duplicate field `" ++ name ++ "`"
  | surplusElements n =>
    "invalid length " ++ toString n ++ ", expected fewer elements in array"
  | unknownChoice given choices =>
    "unknown variant `" ++ given ++ "`, expected " ++ describeChoices choices
  | refused rule => rule

end Mismatch

end DagScaffold.Record
