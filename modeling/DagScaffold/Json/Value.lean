import DagScaffold.Json.Scan

/-!
# JSON values

The tree of a JSON text and its printed form, with two blanks for each level.

* `Value` : the tree; an object keeps its members in the order of the text;
* `Value.entries` : the members of an object in the order of their keys;
* `Value.pretty` : the printed form.
-/

namespace DagScaffold.Json

open DagScaffold.Record

/-- A JSON value. -/
inductive Value where
  | null
  | flag (value : Bool)
  | number (value : Number)
  | text (value : String)
  | list (items : List Value)
  | object (members : List (String × Value))
  deriving Repr

/-! ## Members of an object -/

/-- Puts a member into a list of members that is sorted by key, in place of one with the same
key. -/
def insertMember (key : String) (value : Value) : List (String × Value) → List (String × Value)
  | [] => [(key, value)]
  | m :: ms =>
    if key < m.1 then (key, value) :: m :: ms
    else if key = m.1 then (key, value) :: ms
    else m :: insertMember key value ms

/-- The members of an object sorted by key; of two with one key the later one counts. -/
def sortMembers (members : List (String × Value)) : List (String × Value) :=
  members.foldl (fun sorted m => insertMember m.1 m.2 sorted) []

namespace Value

/-- The value of a key of an object. -/
def get? (key : String) : Value → Option Value
  | .object members => (sortMembers members).lookup key
  | _ => none

/-- The description of a value in a report. -/
def found : Value → Found
  | null => .null
  | flag b => .flag b
  | number n => n.found
  | text s => .text s
  | list _ => .list
  | object _ => .map

end Value

/-! ## Printing -/

/-- The four digits to the base sixteen of a number below `2 ^ 16`, in small letters. -/
def fourDigits (n : Nat) : List Char :=
  let ds := Nat.toDigits 16 n
  List.replicate (4 - ds.length) '0' ++ ds

/-- The printed form of a character of a text. -/
def escapeChar (c : Char) : List Char :=
  if c = '"' then ['\\', '"']
  else if c = '\\' then ['\\', '\\']
  else if c = '\x08' then ['\\', 'b']
  else if c = '\x0c' then ['\\', 'f']
  else if c = '\n' then ['\\', 'n']
  else if c = '\r' then ['\\', 'r']
  else if c = '\t' then ['\\', 't']
  else if c.toNat < 0x20 then '\\' :: 'u' :: fourDigits c.toNat
  else [c]

/-- The printed form of a text, between quotes. -/
def printText (s : String) : List Char :=
  '"' :: s.toList.flatMap escapeChar ++ ['"']

/-- A line feed and the blanks that open a line at the given level. -/
def newLine (level : Nat) : List Char :=
  '\n' :: List.replicate (2 * level) ' '

/-- The printed form of a number. -/
def printNumber : Number → List Char
  | .integer n => (toString n).toList
  | .fraction x => (reportStyle.render x).toList

/-- The parts of a list or an object, each on a line of its own. -/
def separate (level : Nat) : List (List Char) → List Char
  | [] => []
  | [p] => newLine level ++ p
  | p :: ps => newLine level ++ p ++ ',' :: separate level ps

namespace Value

mutual

/-- The printed form of a value that stands at the given level. -/
def printAt (level : Nat) : Value → List Char
  | null => ['n', 'u', 'l', 'l']
  | flag b => (if b then "true" else "false").toList
  | number n => printNumber n
  | text s => printText s
  | list [] => ['[', ']']
  | list (v :: vs) =>
    '[' :: separate (level + 1) (printItems (level + 1) (v :: vs)) ++ newLine level ++ [']']
  | object [] => ['\x7b', '\x7d']
  | object (m :: ms) =>
    '\x7b' :: separate (level + 1) (printMembers (level + 1) (m :: ms)) ++ newLine level ++ ['\x7d']

/-- The printed forms of the items of a list. -/
def printItems (level : Nat) : List Value → List (List Char)
  | [] => []
  | v :: vs => printAt level v :: printItems level vs

/-- The printed forms of the members of an object. -/
def printMembers (level : Nat) : List (String × Value) → List (List Char)
  | [] => []
  | m :: ms => (printText m.1 ++ ':' :: ' ' :: printAt level m.2) :: printMembers level ms

end

/-- The printed form of a value over several lines. -/
def pretty (v : Value) : String :=
  .ofList (printAt 0 v)

end Value

end DagScaffold.Json
