import DagScaffold.Record.Reading
import DagScaffold.Yaml.Value

/-!
# Reading a YAML document

A reader takes a part of a document and gives what it stands for. On its way it follows references,
of which there is a limited number, so that a small document cannot make it work for ever.

* `Reader` : readers of parts, a notation for records;
* `Reader.value` : reading a value of any kind;
* `Reader.entries` : the members of a map by the texts of their keys;
* `Reader.run` : reading the document of a text.
-/

namespace DagScaffold.Yaml

open DagScaffold.Record

/-- A reader of values of type `α`. It takes the anchored parts, the part to read and the number of
references that it may follow, and gives the number that is left. -/
def Reader (α : Type) : Type :=
  List (Nat × Node) → Node → Nat → Except Fault (α × Nat)

namespace Reader

variable {α β : Type}

/-- Applies a function to what a reader gives. -/
protected def map (f : α → β) (r : Reader α) : Reader β := fun parts n budget =>
  (r parts n budget).map fun out => (f out.1, out.2)

/-- Reads what a part gives once a reference has been followed. An anchored part is no reference. -/
def follow (r : Reader α) : Reader α := fun parts n budget =>
  match n with
  | .reference target =>
    match budget, parts.lookup target with
    | budget + 1, some n => r parts n budget
    | _, _ => .error .repetition
  | n => r parts n budget

/-! ## Texts, flags and integers -/

/-- Reads a text. -/
def text : Reader String :=
  follow fun _ n budget =>
    match n with
    | .scalar _ _ s => .ok (s, budget)
    | _ => .error .wrongKind

/-- Whether a text may be read as something else: it is plain, or it has lines of its own and the
tag of what it is read as. -/
def isLiteralFor (standard : String) (tag : Option String) (style : Style) : Bool :=
  style = .plain || (style = .literal && tag = some standard)

/-- Reads a flag. -/
def flag : Reader Bool :=
  follow fun _ n budget =>
    match n with
    | .scalar tag style s =>
      match isLiteralFor flagTag tag style, flag? s with
      | true, some b => .ok (b, budget)
      | _, _ => .error .wrongKind
    | _ => .error .wrongKind

/-- Reads an integer of 64 bits with a sign. -/
def integer : Reader Int64 :=
  follow fun _ n budget =>
    match n with
    | .scalar tag style s =>
      match isLiteralFor integerTag tag style, integer? s.toList with
      | true, some i =>
        if Int64.minValue.toInt ≤ i && i ≤ Int64.maxValue.toInt then .ok (Int64.ofInt i, budget)
        else .error .wrongKind
      | _, _ => .error .wrongKind
    | _ => .error .wrongKind

/-- Whether a text stands for nothing; a tag may say that it must, or that it does not. -/
def isAbsent (tag : Option String) (style : Style) (s : String) : Except Fault Bool :=
  if style ≠ .plain then .ok false
  else
    match tag with
    | none => .ok (s = "" || isNullWord s)
    | some t =>
      if t = nullTag then if isNullWord s then .ok true else .error .wrongKind else .ok false

/-- Reads a value that may be absent. -/
def optional (inner : Reader α) : Reader (Option α) :=
  follow fun parts n budget =>
    match n with
    | .scalar tag style s =>
      (isAbsent tag style s).bind fun absent =>
        if absent then .ok (none, budget)
        else (inner parts n budget).map fun out => (some out.1, out.2)
    | n => (inner parts n budget).map fun out => (some out.1, out.2)

/-! ## Lists and records -/

/-- Reads every part of a list in turn. -/
def each (inner : Reader α) (parts : List (Nat × Node)) :
    List Node → Nat → Except Fault (List α × Nat)
  | [], budget => .ok ([], budget)
  | n :: ns, budget =>
    (inner parts n budget).bind fun out =>
      (each inner parts ns out.2).map fun others => (out.1 :: others.1, others.2)

/-- Reads a list. An empty part is an empty list. -/
def list (inner : Reader α) : Reader (List α) :=
  follow fun parts n budget =>
    match n with
    | .list _ items => each inner parts items budget
    | .scalar _ .plain "" => .ok ([], budget)
    | _ => .error .wrongKind

/-- Reads the members of a map as fields of a record, given the names that were read before. -/
def members (fields : List (Field Reader α)) (parts : List (Nat × Node)) :
    List String → List (Node × Node) → α → Nat → Except Fault (α × Nat)
  | _, [], acc, budget => .ok (acc, budget)
  | seen, m :: ms, acc, budget =>
    (text parts m.1 budget).bind fun key =>
      match fields.find? (·.name = key.1) with
      | some f =>
        if key.1 ∈ seen then .error .duplicateKey
        else
          (f.change parts m.2 key.2).bind fun out =>
            members fields parts (key.1 :: seen) ms (out.1 acc) out.2
      | none => members fields parts seen ms acc key.2

/-- Reads a record from a map. An empty part is a record without fields. -/
def record (_name : String) (default : α) (fields : List (Field Reader α)) : Reader α :=
  follow fun parts n budget =>
    match n with
    | .map _ ms => members fields parts [] ms default budget
    | .scalar _ .plain "" => .ok (default, budget)
    | _ => .error .wrongKind

instance : Reading Reader where
  map := Reader.map
  text := text
  flag := flag
  integer := integer
  optional := optional
  list := list
  record := record

/-! ## Values of any kind -/

/-- The value of a collection with a tag. -/
def withTag (tag : Option String) (v : Value) : Value :=
  match ownTag? tag with
  | some name => .tagged name v
  | none => v

/-- Reads the members of a map whose keys and values are read by `inner`. -/
def pairs (inner : Reader Value) (parts : List (Nat × Node)) :
    List (Value × Value) → List (Node × Node) → Nat → Except Fault (List (Value × Value) × Nat)
  | seen, [], budget => .ok (seen, budget)
  | seen, m :: ms, budget =>
    (inner parts m.1 budget).bind fun key =>
      if seen.any fun other => other.1.same key.1 then .error .duplicateKey
      else
        (inner parts m.2 key.2).bind fun v =>
          pairs inner parts (seen ++ [(key.1, v.1)]) ms v.2

/-- Reads a value whose parts `inner` reads, if there may be any. -/
def valueOf (inner : Option (Reader Value)) : Reader Value :=
  follow fun parts n budget =>
    match n, inner with
    | .scalar tag style s, _ => (scalarValue tag style s).map fun v => (v, budget)
    | .list tag items, some inner =>
      (each inner parts items budget).map fun out => (withTag tag (.list out.1), out.2)
    | .map tag ms, some inner =>
      (pairs inner parts [] ms budget).map fun out => (withTag tag (.map out.1), out.2)
    | .reference _, _ => .error .repetition
    | _, none => .error .depth

/-- Reads a value with at most `depth` collections inside one another. -/
def value : Nat → Reader Value
  | 0 => valueOf none
  | depth + 1 => valueOf (some (value depth))

/-- The greatest number of collections inside one another. -/
def maxDepth : Nat := 128

/-- Reads the keys of a map as texts and their values as values of any kind. -/
def entriesOf (parts : List (Nat × Node)) :
    List (Node × Node) → Nat → Except Fault (List (String × Value) × Nat)
  | [], budget => .ok ([], budget)
  | m :: ms, budget =>
    (text parts m.1 budget).bind fun key =>
      (value (maxDepth - 1) parts m.2 key.2).bind fun v =>
        (entriesOf parts ms v.2).map fun others => ((key.1, v.1) :: others.1, others.2)

/-- Reads a map by the texts of its keys. An empty part is an empty map. -/
def entries : Reader (List (String × Value)) :=
  follow fun parts n budget =>
    match n with
    | .map _ ms => entriesOf parts ms budget
    | .scalar _ .plain "" => .ok ([], budget)
    | _ => .error .wrongKind

/-! ## Whole texts -/

/-- The number of references that may be followed for each mark of a document. -/
def referencesPerMark : Nat := 100

/-- Reads the document of a text. -/
def run (r : Reader α) (s : String) : Except Fault α :=
  (document s).bind fun d =>
    (r d.parts d.root (referencesPerMark * d.root.weight)).map (·.1)

end Reader

end DagScaffold.Yaml
