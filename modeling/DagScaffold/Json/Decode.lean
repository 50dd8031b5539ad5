import DagScaffold.Json.Value
import DagScaffold.Record.Reading

/-!
# Reading records from a JSON value

The same records as from a text, read from a tree that is already there. A failure has no place in a
text; the members of an object are read in the order of their keys.

* `Decoder` : readers of values, a notation for records;
* `Decoder.choice` : reading one of several names.
-/

namespace DagScaffold.Json

open DagScaffold.Record

/-- A reader of values of type `α` from a tree. -/
def Decoder (α : Type) : Type :=
  Value → Except Mismatch α

namespace Decoder

variable {α β : Type}

/-- The mismatch of a value that is not what is expected. -/
def misfit (expected : Expected) (v : Value) : Mismatch :=
  .wrongKind v.found expected

/-- Applies a function to what a reader gives. -/
protected def map (f : α → β) (d : Decoder α) : Decoder β := fun v =>
  (d v).map f

/-- Reads a text. -/
def text : Decoder String
  | .text s => .ok s
  | v => .error (misfit .text v)

/-- Reads a flag. -/
def flag : Decoder Bool
  | .flag b => .ok b
  | v => .error (misfit .flag v)

/-- Reads an integer of 64 bits with a sign. -/
def integer : Decoder Int64
  | .number (.integer i) =>
    if i ≤ Int64.maxValue.toInt then .ok (Int64.ofInt i) else .error (.integerTooLarge i)
  | v => .error (misfit .integer v)

/-- Reads a value or `null`. -/
def optional (inner : Decoder α) : Decoder (Option α)
  | .null => .ok none
  | v => (inner v).map some

/-- Reads a list. -/
def list (inner : Decoder α) : Decoder (List α)
  | .list vs => vs.mapM inner
  | v => .error (misfit .list v)

/-- Reads the items of a list of `length` items as the fields of a record in their order. -/
def positional (length : Nat) : List (Field Decoder α) → List Value → α → Except Mismatch α
  | _, [], acc => .ok acc
  | [], _ :: _, _ => .error (.surplusElements length)
  | f :: fs, v :: vs, acc => (f.change v).bind fun change => positional length fs vs (change acc)

/-- Reads members of an object as fields of a record. -/
def members (fields : List (Field Decoder α)) : List (String × Value) → α → Except Mismatch α
  | [], acc => .ok acc
  | m :: ms, acc =>
    match fields.find? (·.name = m.1) with
    | some f => (f.change m.2).bind fun change => members fields ms (change acc)
    | none => members fields ms acc

/-- Reads a record from an object, or from a list with the fields in their order. -/
def record (name : String) (default : α) (fields : List (Field Decoder α)) : Decoder α
  | .list vs => positional vs.length fields vs default
  | .object ms => members fields (sortMembers ms) default
  | v => .error (misfit (.record name) v)

instance : Reading Decoder where
  map := Decoder.map
  text := text
  flag := flag
  integer := integer
  optional := optional
  list := list
  record := record

/-- Reads one of the named choices. -/
def choice (choices : List (String × α)) : Decoder α
  | .text s =>
    match choices.lookup s with
    | some a => .ok a
    | none => .error (.unknownChoice s (choices.map (·.1)))
  | v => .error (misfit .choice v)

/-- Reads an integer that has to pass a test, whose failure is given in words. -/
def checked (test : Int → Except String α) : Decoder α := fun v =>
  (integer v).bind fun n =>
    match test n.toInt with
    | .ok a => .ok a
    | .error rule => .error (.refused rule)

end Decoder

end DagScaffold.Json
