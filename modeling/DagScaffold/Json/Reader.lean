import DagScaffold.Json.Value
import DagScaffold.Record.Reading

/-!
# Reading records from a JSON text

A reader takes a value from the front of a text. The record readers follow the text: the first thing
in it that breaks the grammar or does not fit the record is the failure.

* `Reader` : readers over the rest of a text, a notation for records;
* `Reader.run` : reading a whole text;
* `Reader.value` : the tree of a value of any kind.
-/

namespace DagScaffold.Json

open DagScaffold.Record

/-- A reader of values of type `α`. -/
def Reader (α : Type) : Type :=
  List Char → Outcome α

/-! ## Values that do not fit -/

/-- The failure of a value that does not fit, once the value has been read. -/
def misfit (expected : Expected) (found : Found) (rest : List Char) : Failure :=
  .before (.mismatch (.wrongKind found expected)) rest

/-- Reads a value that cannot be what is expected, for the report. A list or an object is not
read. -/
def misfitOf (expected : Expected) (c : Char) (r : List Char) : Failure :=
  let settle {α : Type} (outcome : Outcome α) (found : α → Found) : Failure :=
    match outcome with
    | .ok (a, rest) => misfit expected (found a) rest
    | .error f => f
  let settleWord (letters : List Char) (found : Found) : Failure :=
    match word letters r with
    | .ok rest => misfit expected found rest
    | .error f => f
  if c = 'n' then settleWord ['u', 'l', 'l'] .null
  else if c = 't' then settleWord ['r', 'u', 'e'] (.flag true)
  else if c = 'f' then settleWord ['a', 'l', 's', 'e'] (.flag false)
  else if c = '-' then settle (number true r) Number.found
  else if c.isDigit then settle (number false (c :: r)) Number.found
  else if c = '"' then settle (quoted r) Found.text
  else if c = '[' then misfit expected .list (c :: r)
  else if c = '\x7b' then misfit expected .map (c :: r)
  else .on .expectedValue (c :: r)

namespace Reader

variable {α β : Type}

/-- Applies a function to what a reader gives. -/
protected def map (f : α → β) (r : Reader α) : Reader β := fun cs =>
  (r cs).map fun out => (f out.1, out.2)

/-- Skips the blanks and decides by the next character; a text that ends here fails. -/
def peek (k : Char → List Char → Outcome α) : Reader α := fun cs =>
  match skipBlanks cs with
  | [] => .error (.on .eofInValue [])
  | c :: r => k c r

/-! ## Texts, flags and integers -/

/-- Reads a text. -/
def text : Reader String :=
  peek fun c r => if c = '"' then quoted r else .error (misfitOf .text c r)

/-- Reads a flag. -/
def flag : Reader Bool :=
  peek fun c r =>
    if c = 't' then (word ['r', 'u', 'e'] r).map fun rest => (true, rest)
    else if c = 'f' then (word ['a', 'l', 's', 'e'] r).map fun rest => (false, rest)
    else .error (misfitOf .flag c r)

/-- The integer that a number is, if it fits into 64 bits with a sign. -/
def integerOf (n : Number) (rest : List Char) : Outcome Int64 :=
  match n with
  | .integer i =>
    if i ≤ Int64.maxValue.toInt then .ok (Int64.ofInt i, rest)
    else .error (.before (.mismatch (.integerTooLarge i)) rest)
  | .fraction x => .error (misfit .integer (.fraction x) rest)

/-- Reads an integer. -/
def integer : Reader Int64 :=
  peek fun c r =>
    if c = '-' then (number true r).bind fun out => integerOf out.1 out.2
    else if c.isDigit then (number false (c :: r)).bind fun out => integerOf out.1 out.2
    else .error (misfitOf .integer c r)

/-- Reads a value or `null`. -/
def optional (inner : Reader α) : Reader (Option α) := fun cs =>
  match skipBlanks cs with
  | 'n' :: r => (word ['u', 'l', 'l'] r).map fun rest => (none, rest)
  | cs => (inner cs).map fun out => (some out.1, out.2)

/-! ## Lists -/

/-- Looks for the next item of a list: `none` before its closing bracket, else the text at the
item. -/
def nextItem (first : Bool) (cs : List Char) : Except Failure (Option (List Char)) :=
  match skipBlanks cs with
  | [] => .error (.on .eofInList [])
  | c :: r =>
    if c = ']' then .ok none
    else if c = ',' && !first then
      match skipBlanks r with
      | [] => .error (.on .eofInValue [])
      | d :: s => if d = ']' then .error (.on .trailingComma (d :: s)) else .ok (some (d :: s))
    else if first then .ok (some (c :: r))
    else .error (.on .expectedListCommaOrEnd (c :: r))

/-- What follows the closing bracket of a list that has to end here. -/
def closeList (cs : List Char) : Except Failure (List Char) :=
  match skipBlanks cs with
  | [] => .error (.on .eofInList [])
  | c :: r =>
    if c = ']' then .ok r
    else if c = ',' then
      match skipBlanks r with
      | ']' :: s => .error (.on .trailingComma (']' :: s))
      | s => .error (.on .trailingCharacters s)
    else .error (.on .trailingCharacters (c :: r))

/-- Reads the items of a list up to its closing bracket. Each item takes a character of the text, so
the fuel of its length suffices. -/
def items (inner : Reader α) : Nat → Bool → Reader (List α)
  | 0, _, cs => .ok ([], cs)
  | fuel + 1, first, cs =>
    (nextItem first cs).bind fun
      | none => (closeList cs).map fun rest => ([], rest)
      | some place =>
        (inner place).bind fun out =>
          (items inner fuel false out.2).map fun others => (out.1 :: others.1, others.2)

/-- Reads a list. -/
def list (inner : Reader α) : Reader (List α) :=
  peek fun c r =>
    if c = '[' then items inner (r.length + 1) true r else .error (misfitOf .list c r)

/-! ## Records -/

/-- Reads the items of a list as the fields of a record in their order. -/
def positional : List (Field Reader α) → Bool → α → Reader α
  | [], _, acc, cs => (closeList cs).map fun rest => (acc, rest)
  | f :: fs, first, acc, cs =>
    (nextItem first cs).bind fun
      | none => (closeList cs).map fun rest => (acc, rest)
      | some place => (f.change place).bind fun out => positional fs false (out.1 acc) out.2

/-- Looks for the next member of an object: `none` after its closing bracket, which is left out,
else the text after the opening quote of the key. -/
def nextKey (first : Bool) (cs : List Char) : Except Failure (Option (List Char) × List Char) :=
  match skipBlanks cs with
  | [] => .error (.on .eofInObject [])
  | c :: r =>
    if c = '\x7d' then .ok (none, r)
    else if c = ',' && !first then
      match skipBlanks r with
      | [] => .error (.on .eofInValue [])
      | d :: s =>
        if d = '"' then .ok (some s, s)
        else if d = '\x7d' then .error (.on .trailingComma (d :: s))
        else .error (.on .keyMustBeText (d :: s))
    else if !first then .error (.on .expectedObjectCommaOrEnd (c :: r))
    else if c = '"' then .ok (some r, r)
    else .error (.on .keyMustBeText (c :: r))

/-- What follows the colon after a key. -/
def colon (cs : List Char) : Except Failure (List Char) :=
  match skipBlanks cs with
  | [] => .error (.on .eofInObject [])
  | c :: r => if c = ':' then .ok r else .error (.on .expectedColon (c :: r))

/-- The failure of a key that occurs for the second time. It is noticed after the blanks that follow
the key, and after a closing bracket if one stands there. -/
def duplicate (name : String) (rest : List Char) : Failure :=
  match skipBlanks rest with
  | '\x7d' :: r => .before (.mismatch (.duplicateField name)) r
  | r => .before (.mismatch (.duplicateField name)) r

/-- Reads the members of an object as fields of a record, given the names that were read before. -/
def members (fields : List (Field Reader α)) : Nat → Bool → List String → α → Reader α
  | 0, _, _, acc, cs => .ok (acc, cs)
  | fuel + 1, first, seen, acc, cs =>
    (nextKey first cs).bind fun
      | (none, rest) => .ok (acc, rest)
      | (some place, _) =>
        (quoted place).bind fun key =>
          match fields.find? (·.name = key.1) with
          | some f =>
            if key.1 ∈ seen then .error (duplicate key.1 key.2)
            else
              (colon key.2).bind fun rest =>
                (f.change rest).bind fun out =>
                  members fields fuel false (key.1 :: seen) (out.1 acc) out.2
          | none =>
            (colon key.2).bind fun rest =>
              (skipValue rest).bind fun rest => members fields fuel false seen acc rest

/-- Reads a record from an object, or from a list with the fields in their order. -/
def record (name : String) (default : α) (fields : List (Field Reader α)) : Reader α :=
  peek fun c r =>
    if c = '[' then positional fields true default r
    else if c = '\x7b' then members fields (r.length + 1) true [] default r
    else .error (misfitOf (.record name) c r)

instance : Reading Reader where
  map := Reader.map
  text := text
  flag := flag
  integer := integer
  optional := optional
  list := list
  record := record

/-! ## Whole texts -/

/-- Reads a text that holds one value and blanks around it. -/
def run (r : Reader α) (s : String) : Except Failure α :=
  (r s.toList).bind fun out =>
    match skipBlanks out.2 with
    | [] => .ok out.1
    | rest => .error (.on .trailingCharacters rest)

/-! ## Values of any kind -/

/-- Reads the members of an object with a reader for their values. -/
def anyMembers (inner : Reader Value) : Nat → Bool → Reader (List (String × Value))
  | 0, _, cs => .ok ([], cs)
  | fuel + 1, first, cs =>
    (nextKey first cs).bind fun
      | (none, rest) => .ok ([], rest)
      | (some place, _) =>
        (quoted place).bind fun key =>
          (colon key.2).bind fun rest =>
            (inner rest).bind fun out =>
              (anyMembers inner fuel false out.2).map fun others =>
                ((key.1, out.1) :: others.1, others.2)

/-- Reads a value with at most `depth` brackets inside one another. -/
def valueWithin : Nat → Reader Value
  | 0 => fun cs => .error (.before .expectedValue cs)
  | depth + 1 =>
    peek fun c r =>
      if c = '"' then (quoted r).map fun out => (.text out.1, out.2)
      else if c = '[' then
        (items (valueWithin depth) (r.length + 1) true r).map fun out => (.list out.1, out.2)
      else if c = '\x7b' then
        (anyMembers (valueWithin depth) (r.length + 1) true r).map fun out => (.object out.1, out.2)
      else if c = 'n' then (word ['u', 'l', 'l'] r).map fun rest => (.null, rest)
      else if c = 't' then (word ['r', 'u', 'e'] r).map fun rest => (.flag true, rest)
      else if c = 'f' then (word ['a', 'l', 's', 'e'] r).map fun rest => (.flag false, rest)
      else if c = '-' then (number true r).map fun out => (.number out.1, out.2)
      else if c.isDigit then (number false (c :: r)).map fun out => (.number out.1, out.2)
      else .error (.on .expectedValue (c :: r))

/-- Reads a value of any kind. A text has no more brackets than characters. -/
def value : Reader Value := fun cs =>
  valueWithin (cs.length + 1) cs

end Reader

end DagScaffold.Json
