import DagScaffold.Yaml.Node
import DagScaffold.Yaml.Schema

/-!
# YAML values

A value is a part of a document with its references followed and its texts understood.

* `Value` : the tree of values;
* `scalarValue` : the value of a text with a tag;
* `Value.spelling?` : the text of a value that is no collection.
-/

namespace DagScaffold.Yaml

/-- A value of a document. -/
inductive Value where
  | null
  | flag (value : Bool)
  | number (value : Number)
  | text (value : String)
  | list (items : List Value)
  | map (members : List (Value × Value))
  | tagged (tag : String) (value : Value)
  deriving Repr

namespace Value

/-! ## Sameness -/

mutual

/-- Whether two values are the same; the order of the members of a map is of no account. -/
def same : Value → Value → Bool
  | null, null => true
  | flag a, flag b => a = b
  | number a, number b => a.same b
  | text a, text b => a = b
  | list vs, list ws => sameItems vs ws
  | map ms, map ns => ms.length = ns.length && sameMembers ms ns
  | tagged s a, tagged t b => s = t && same a b
  | _, _ => false

/-- Whether two lists of items are the same. -/
def sameItems : List Value → List Value → Bool
  | [], [] => true
  | v :: vs, w :: ws => same v w && sameItems vs ws
  | _, _ => false

/-- Whether the second list has every member of the first one. -/
def sameMembers : List (Value × Value) → List (Value × Value) → Bool
  | [], _ => true
  | m :: ms, ns => (ns.any fun n => same m.1 n.1 && same m.2 n.2) && sameMembers ms ns

end

/-! ## Texts -/

/-- The text of a value that is no collection, has no tag of its own and stands for something. -/
def spelling? : Value → Option String
  | text s => some s
  | number n => some n.text
  | flag b => some (if b then "true" else "false")
  | _ => none

end Value

/-! ## The value of a text -/

/-- The tag of a value that stands for nothing. -/
def nullTag : String := "tag:yaml.org,2002:null"

/-- The tag of a flag. -/
def flagTag : String := "tag:yaml.org,2002:bool"

/-- The tag of an integer. -/
def integerTag : String := "tag:yaml.org,2002:int"

/-- The tag of a floating point number. -/
def fractionTag : String := "tag:yaml.org,2002:float"

/-- The name of a tag that a document gives by itself: what follows its exclamation mark. -/
def ownTag? (tag : Option String) : Option String :=
  match tag.map String.toList with
  | some ['!'] => some "!"
  | some ('!' :: name) => some (.ofList name)
  | _ => none

/-- The value of a text without a tag. -/
def untaggedValue (style : Style) (text : String) : Except Fault Value :=
  if style = .plain then
    match meaning text with
    | .null => .ok .null
    | .flag b => .ok (.flag b)
    | .number n => .ok (.number n)
    | .oversized => .error .wrongKind
    | .text => .ok (.text text)
  else .ok (.text text)

/-- The value of a text whose tag says that it is an integer. -/
def integerValue (text : String) : Except Fault Value :=
  match integerMeaning? text.toList with
  | some (.number n) => .ok (.number n)
  | _ => .error .wrongKind

/-- The value of a text whose tag is `tag`. A standard tag says what the text must stand for, any
other one but those of the document makes it a text. -/
def standardValue (tag text : String) : Except Fault Value :=
  if tag = flagTag then
    match flag? text with
    | some b => .ok (.flag b)
    | none => .error .wrongKind
  else if tag = integerTag then integerValue text
  else if tag = fractionTag then
    match fraction? text.toList with
    | some x => .ok (.number x)
    | none => .error .wrongKind
  else if tag = nullTag then if isNullWord text then .ok .null else .error .wrongKind
  else .ok (.text text)

/-- The value of a text. -/
def scalarValue (tag : Option String) (style : Style) (text : String) : Except Fault Value :=
  match ownTag? tag with
  | some name => (untaggedValue style text).map (.tagged name)
  | none =>
    match tag with
    | some t => standardValue t text
    | none => untaggedValue style text

end DagScaffold.Yaml
