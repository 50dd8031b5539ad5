import DagScaffold.Yaml.Layout

/-!
# The tree of a YAML document

The tokens of a text make up at most one document: a tree of texts, lists and maps. A part of the
tree that has an anchor can be meant again further on, where the tree holds a reference to it; so a
part may even be meant within itself.

* `Node`, `Document` : the tree and its anchored parts;
* `document` : the document of a text.
-/

namespace DagScaffold.Yaml

/-! ## Trees -/

/-- A part of a document. -/
inductive Node where
  | scalar (tag : Option String) (style : Style) (text : String)
  | list (tag : Option String) (items : List Node)
  | map (tag : Option String) (members : List (Node × Node))
  /-- The anchored part with the given number. -/
  | reference (target : Nat)
  deriving Repr

namespace Node

/-- A part for which nothing is written. -/
def empty : Node :=
  scalar none .plain ""

mutual

/-- The number of marks that it takes to write a part: one for a text or a reference, and two around
the parts of a list or a map. -/
def weight : Node → Nat
  | scalar _ _ _ => 1
  | list _ items => 2 + itemsWeight items
  | map _ members => 2 + membersWeight members
  | reference _ => 1

/-- The number of marks of the items of a list. -/
def itemsWeight : List Node → Nat
  | [] => 0
  | n :: ns => n.weight + itemsWeight ns

/-- The number of marks of the members of a map. -/
def membersWeight : List (Node × Node) → Nat
  | [] => 0
  | m :: ms => m.1.weight + m.2.weight + membersWeight ms

end

end Node

/-- The parts with an anchor: their names, the latest first, and those that are complete. A name
that is given twice means the later part from there on. -/
structure Anchors where
  names : List (String × Nat) := []
  parts : List (Nat × Node) := []
  deriving Repr

namespace Anchors

/-- Gives the next number to a part if it has a name. -/
def declare (a : Anchors) : Option String → Anchors
  | none => a
  | some name => { a with names := (name, a.names.length) :: a.names }

/-- Stores the part that the name was given to when there were the anchors `before`. -/
def complete (a before : Anchors) (name : Option String) (n : Node) : Anchors :=
  match name with
  | none => a
  | some _ => { a with parts := (before.names.length, n) :: a.parts }

end Anchors

/-- A document: its tree and the anchored parts by their numbers. -/
structure Document where
  root : Node
  parts : List (Nat × Node)
  deriving Repr

/-! ## From tokens to trees -/

/-- What was built from the front of the tokens. -/
structure Built (α : Type) where
  value : α
  rest : List Token
  anchors : Anchors
  deriving Repr

namespace Built

/-- Applies a function to what was built. -/
protected def map {α β : Type} (f : α → β) (b : Built α) : Built β :=
  ⟨f b.value, b.rest, b.anchors⟩

end Built

/-- What surrounds a part: lines, lines after a key, where the items of a list need no indentation
of their own, or brackets. -/
inductive Surroundings where
  | lines
  | linesAfterKey
  | brackets
  deriving DecidableEq, Repr

/-- The anchor and the tag before a part. -/
structure Properties where
  anchor : Option String := none
  /-- The handle and the suffix. -/
  tag : Option (String × String) := none
  deriving DecidableEq, Repr

/-- Reads an anchor and a tag in either order. -/
def properties : List Token → Properties × List Token
  | .anchor a :: .tag h s :: ts => (⟨some a, some (h, s)⟩, ts)
  | .anchor a :: ts => (⟨some a, none⟩, ts)
  | .tag h s :: .anchor a :: ts => (⟨some a, some (h, s)⟩, ts)
  | .tag h s :: ts => (⟨none, some (h, s)⟩, ts)
  | ts => (⟨none, none⟩, ts)

/-- The tag that a handle and a suffix stand for. -/
def resolveTag (handles : List (String × String)) :
    Option (String × String) → Except Fault (Option String)
  | none => .ok none
  | some (handle, suffix) =>
    if handle = "" then .ok (some suffix)
    else
      match handles.lookup handle with
      | some pre => .ok (some (pre ++ suffix))
      | none => .error .undefinedHandle

/-- The tag of a text. A single exclamation mark is no tag of its own. -/
def scalarTag (tag : Option String) : Option String :=
  if tag = some "!" then none else tag

/-- Whether an item of a list is left out before the tokens. -/
def lacksItem : List Token → Bool
  | .entry :: _ => true
  | .blockEnd :: _ => true
  | _ => false

/-- Whether an item of a list without indentation of its own is left out before the tokens. -/
def lacksOutdentedItem : List Token → Bool
  | .entry :: _ => true
  | .key :: _ => true
  | .value :: _ => true
  | .blockEnd :: _ => true
  | _ => false

/-- Whether a key or a value of a block map is left out before the tokens. -/
def lacksMember : List Token → Bool
  | .key :: _ => true
  | .value :: _ => true
  | .blockEnd :: _ => true
  | _ => false

/-- Whether a key between brackets, which `closing` ends, is left out before the tokens. -/
def lacksFlowKey (closing : Token) : List Token → Bool
  | .value :: _ => true
  | .separator :: _ => true
  | t :: _ => t = closing
  | [] => false

/-- Whether a value between brackets, which `closing` ends, is left out before the tokens. -/
def lacksFlowValue (closing : Token) : List Token → Bool
  | .separator :: _ => true
  | t :: _ => t = closing
  | [] => false

/-- The tokens after the comma that separates two parts between brackets. -/
def separated (first : Bool) : List Token → Except Fault (List Token)
  | .separator :: ts => if first then .ok (.separator :: ts) else .ok ts
  | ts => if first then .ok ts else .error .grammar

section Building

variable (handles : List (String × String))

mutual

/-- Builds a part. -/
def node : Nat → Surroundings → Anchors → List Token → Except Fault (Built Node)
  | 0, _, _, _ => .error .grammar
  | _ + 1, _, anchors, .alias name :: ts =>
    match anchors.names.lookup name with
    | some target => .ok ⟨.reference target, ts, anchors⟩
    | none => .error .unknownAlias
  | fuel + 1, around, anchors, ts =>
    let (props, ts) := properties ts
    (resolveTag handles props.tag).bind fun tag =>
      (content fuel around props tag (anchors.declare props.anchor) ts).map fun b =>
        { b with anchors := b.anchors.complete anchors props.anchor b.value }

/-- Builds a part whose anchor and tag have been read. -/
def content : Nat → Surroundings → Properties → Option String → Anchors → List Token →
    Except Fault (Built Node)
  | 0, _, _, _, _, _ => .error .grammar
  | _ + 1, _, _, tag, anchors, .scalar style text :: ts =>
    .ok ⟨.scalar (scalarTag tag) style text, ts, anchors⟩
  | fuel + 1, .linesAfterKey, _, tag, anchors, .entry :: ts =>
    (outdentedItems fuel anchors (.entry :: ts)).map (.map (.list tag))
  | fuel + 1, _, _, tag, anchors, .flowList :: ts =>
    (flowItems fuel true anchors ts).map (.map (.list tag))
  | fuel + 1, _, _, tag, anchors, .flowMap :: ts =>
    (flowMembers fuel true anchors ts).map (.map (.map tag))
  | fuel + 1, around, props, tag, anchors, ts =>
    match around, ts with
    | .lines, .blockList :: ts => (items fuel anchors ts).map (.map (.list tag))
    | .linesAfterKey, .blockList :: ts => (items fuel anchors ts).map (.map (.list tag))
    | .lines, .blockMap :: ts => (members fuel anchors ts).map (.map (.map tag))
    | .linesAfterKey, .blockMap :: ts => (members fuel anchors ts).map (.map (.map tag))
    | _, ts =>
      if props.anchor.isSome || props.tag.isSome then
        .ok ⟨.scalar (scalarTag tag) .plain "", ts, anchors⟩
      else .error .grammar

/-- Builds the items of a block list up to its end. -/
def items : Nat → Anchors → List Token → Except Fault (Built (List Node))
  | fuel + 1, anchors, .entry :: ts =>
    (if lacksItem ts then .ok ⟨.empty, ts, anchors⟩ else node fuel .lines anchors ts).bind fun b =>
      (items fuel b.anchors b.rest).map (.map (b.value :: ·))
  | _ + 1, anchors, .blockEnd :: ts => .ok ⟨[], ts, anchors⟩
  | _, _, _ => .error .grammar

/-- Builds the items of a list without indentation of its own. -/
def outdentedItems : Nat → Anchors → List Token → Except Fault (Built (List Node))
  | fuel + 1, anchors, .entry :: ts =>
    (if lacksOutdentedItem ts then .ok ⟨.empty, ts, anchors⟩
      else node fuel .lines anchors ts).bind fun b =>
        (outdentedItems fuel b.anchors b.rest).map (.map (b.value :: ·))
  | _, anchors, ts => .ok ⟨[], ts, anchors⟩

/-- Builds the value of a member of a block map. -/
def memberValue : Nat → Anchors → List Token → Except Fault (Built Node)
  | fuel + 1, anchors, .value :: ts =>
    if lacksMember ts then .ok ⟨.empty, ts, anchors⟩ else node fuel .linesAfterKey anchors ts
  | _, anchors, ts => .ok ⟨.empty, ts, anchors⟩

/-- Builds the members of a block map up to its end. -/
def members : Nat → Anchors → List Token → Except Fault (Built (List (Node × Node)))
  | fuel + 1, anchors, .key :: ts =>
    (if lacksMember ts then .ok ⟨.empty, ts, anchors⟩
      else node fuel .linesAfterKey anchors ts).bind fun k =>
        (memberValue fuel k.anchors k.rest).bind fun v =>
          (members fuel v.anchors v.rest).map (.map ((k.value, v.value) :: ·))
  | _ + 1, anchors, .blockEnd :: ts => .ok ⟨[], ts, anchors⟩
  | _, _, _ => .error .grammar

/-- Builds the value of a member between brackets. -/
def flowValue : Nat → Token → Anchors → List Token → Except Fault (Built Node)
  | fuel + 1, closing, anchors, .value :: ts =>
    if lacksFlowValue closing ts then .ok ⟨.empty, ts, anchors⟩ else node fuel .brackets anchors ts
  | _, _, anchors, ts => .ok ⟨.empty, ts, anchors⟩

/-- Builds the only member of a map that is an item of a list in brackets. A token that takes the
place of its key is passed over. -/
def pair : Nat → Anchors → List Token → Except Fault (Built Node)
  | 0, _, _ => .error .grammar
  | fuel + 1, anchors, ts =>
    (if lacksFlowKey .flowListEnd ts then .ok ⟨.empty, ts.tail, anchors⟩
      else node fuel .brackets anchors ts).bind fun k =>
        (flowValue fuel .flowListEnd k.anchors k.rest).map
          (.map fun v => .map none [(k.value, v)])

/-- Builds the items of a list in brackets up to its end. -/
def flowItems : Nat → Bool → Anchors → List Token → Except Fault (Built (List Node))
  | 0, _, _, _ => .error .grammar
  | _ + 1, _, anchors, .flowListEnd :: ts => .ok ⟨[], ts, anchors⟩
  | fuel + 1, first, anchors, ts =>
    (separated first ts).bind fun
      | .flowListEnd :: ts => .ok ⟨[], ts, anchors⟩
      | .key :: ts =>
        (pair fuel anchors ts).bind fun b =>
          (flowItems fuel false b.anchors b.rest).map (.map (b.value :: ·))
      | ts =>
        (node fuel .brackets anchors ts).bind fun b =>
          (flowItems fuel false b.anchors b.rest).map (.map (b.value :: ·))

/-- Builds the members of a map in brackets up to its end. -/
def flowMembers : Nat → Bool → Anchors → List Token → Except Fault (Built (List (Node × Node)))
  | 0, _, _, _ => .error .grammar
  | _ + 1, _, anchors, .flowMapEnd :: ts => .ok ⟨[], ts, anchors⟩
  | fuel + 1, first, anchors, ts =>
    (separated first ts).bind fun
      | .flowMapEnd :: ts => .ok ⟨[], ts, anchors⟩
      | .key :: ts =>
        (if lacksFlowKey .flowMapEnd ts then .ok ⟨.empty, ts, anchors⟩
          else node fuel .brackets anchors ts).bind fun k =>
            (flowValue fuel .flowMapEnd k.anchors k.rest).bind fun v =>
              (flowMembers fuel false v.anchors v.rest).map (.map ((k.value, v.value) :: ·))
      | ts =>
        (node fuel .brackets anchors ts).bind fun k =>
          (flowMembers fuel false k.anchors k.rest).map (.map ((k.value, .empty) :: ·))

end

end Building

/-! ## Documents -/

/-- The handles that need no directive. -/
def standardHandles : List (String × String) :=
  [("!", "!"), ("!!", "tag:yaml.org,2002:")]

/-- What the directives before a document declare. -/
structure Directives where
  versioned : Bool := false
  handles : List (String × String) := []
  deriving DecidableEq, Repr

/-- Reads the directives before a document. There is at most one version, which must be 1.1 or 1.2,
and no handle is declared twice. -/
def directives (d : Directives) : List Token → Except Fault (Directives × List Token)
  | .version major minor :: ts =>
    if !d.versioned && major = 1 && (minor = 1 || minor = 2) then
      directives { d with versioned := true } ts
    else .error .directive
  | .tagHandle handle pre :: ts =>
    if (d.handles.lookup handle).isSome then .error .directive
    else directives { d with handles := d.handles ++ [(handle, pre)] } ts
  | ts => .ok (d, ts)

/-- Whether a document with a start has no content before the tokens. -/
def lacksContent : List Token → Bool
  | [] => true
  | .version _ _ :: _ => true
  | .tagHandle _ _ :: _ => true
  | .documentStart :: _ => true
  | .documentEnd :: _ => true
  | _ => false

/-- Builds the tree of a document, whose start may be marked. A token belongs to at most three
nested steps, so the fuel suffices. -/
def tree (ts : List Token) : Except Fault (Built Node) :=
  (directives {} ts).bind fun (d, rest) =>
    let handles := d.handles ++ standardHandles
    let fuel := 3 * ts.length + 4
    match rest with
    | .documentStart :: rest =>
      if lacksContent rest then .ok ⟨.empty, rest, {}⟩ else node handles fuel .lines {} rest
    | rest =>
      if d.versioned || !d.handles.isEmpty then .error .grammar
      else if rest.isEmpty then .ok ⟨.empty, rest, {}⟩
      else node handles fuel .lines {} rest

/-- Whether the tokens after a tree end the only document of a text. -/
def endsText (ts : List Token) : Bool :=
  (ts.dropWhile (· = .documentEnd)).isEmpty

/-- The document of a text; that of an empty text is an empty part. -/
def document (s : String) : Except Fault Document :=
  match readable s with
  | none => .error .character
  | some cs =>
    (tokens cs).bind fun ts =>
      (tree ts).bind fun b =>
        if endsText b.rest then .ok ⟨b.value, b.anchors.parts⟩ else .error .furtherDocument

end DagScaffold.Yaml
