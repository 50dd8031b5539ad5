import DagScaffold.Yaml.Token

/-!
# From characters to tokens

The tokens of a text are found from front to back. Two things are known only later than they stand:
a text turns out to be a key when a colon follows it, and a block collection starts before its first
key or item. So a `Layout` keeps the tokens found so far, the columns of the open block collections
and, for every level of brackets, the place where a key may have begun.

* `Layout.step` : the next token;
* `tokens` : all tokens of a text.
-/

namespace DagScaffold.Yaml

/-! ## The state of the search -/

/-- A place where a key may have begun. -/
structure KeyStart where
  place : Place
  /-- What stands here must be a key, since it is as deep as the keys of its collection. -/
  required : Bool
  /-- The number of tokens before it. -/
  position : Nat
  deriving DecidableEq, Repr

/-- The search for tokens at a place of a text. -/
structure Layout where
  place : Place
  rest : List Char
  /-- The tokens found so far, the latest one first. -/
  found : List Token := []
  /-- The columns of the open block collections, the innermost one first. -/
  blocks : List Nat := []
  /-- Where a key may have begun within the innermost brackets. -/
  key : Option KeyStart := none
  /-- The same for the levels around the innermost brackets. -/
  outer : List (Option KeyStart) := []
  /-- A key may begin here. -/
  keyAllowed : Bool := true
  deriving Repr

namespace Layout

/-- Whether the place is between brackets. -/
def inBrackets (s : Layout) : Bool :=
  !s.outer.isEmpty

/-- The least column of what belongs to the innermost block collection without being one of its keys
or items. -/
def margin (s : Layout) : Nat :=
  match s.blocks with
  | [] => 0
  | column :: _ => column + 1

/-- Adds a token. -/
def emit (s : Layout) (t : Token) : Layout :=
  { s with found := t :: s.found }

/-- Goes on to a later place. -/
def moveTo (s : Layout) (p : Place) (rest : List Char) : Layout :=
  { s with place := p, rest := rest }

/-- Goes on by `n` characters of the line. -/
def skip (s : Layout) (n : Nat) : Layout :=
  s.moveTo (s.place.right n) (s.rest.drop n)

/-- Goes on to a rest of the same line. -/
def toRest (s : Layout) (rest : List Char) : Layout :=
  s.moveTo (s.place.right (s.rest.length - rest.length)) rest

/-! ## Blanks and comments -/

/-- What follows the blanks, the comments and the breaks at a place. A tab is no blank where a key
may begin, and outside brackets a key may begin on every new line. -/
def blanksFrom (inBrackets : Bool) : Bool → Bool → Place → List Char → Bool × Place × List Char
  | keyAllowed, _, p, [] => (keyAllowed, p, [])
  | keyAllowed, inComment, p, c :: cs =>
    if isBreak c then blanksFrom inBrackets (keyAllowed || !inBrackets) false (p.after c) cs
    else if inComment then blanksFrom inBrackets keyAllowed true (p.after c) cs
    else if c = ' ' || (c = '\t' && (inBrackets || !keyAllowed)) then
      blanksFrom inBrackets keyAllowed false (p.after c) cs
    else if c = '#' then blanksFrom inBrackets keyAllowed true (p.after c) cs
    else (keyAllowed, p, c :: cs)

/-- Goes on to the next character that belongs to a token. -/
def skipBlanks (s : Layout) : Layout :=
  let (keyAllowed, p, rest) := blanksFrom s.inBrackets s.keyAllowed false s.place s.rest
  { s with keyAllowed, place := p, rest }

/-! ## Keys -/

/-- The greatest number of characters of a key. -/
def keyLength : Nat := 1024

/-- A key that may have begun, if it still can be one at the place. -/
def stillKey (p : Place) : Option KeyStart → Except Fault (Option KeyStart)
  | none => .ok none
  | some k =>
    if k.place.line < p.line || k.place.column + keyLength < p.column then
      if k.required then .error .missingColon else .ok none
    else .ok (some k)

/-- Forgets the keys that have become impossible. -/
def refreshKeys (s : Layout) : Except Fault Layout := do
  let key ← stillKey s.place s.key
  let outer ← s.outer.mapM (stillKey s.place)
  return { s with key, outer }

/-- Gives up the key of the innermost level. -/
def dropKey (s : Layout) : Except Fault Layout :=
  if s.key.any KeyStart.required then .error .missingColon else .ok { s with key := none }

/-- Notes that a key may begin here, and that none may begin after the token that follows. -/
def beginKey (s : Layout) : Except Fault Layout :=
  if s.keyAllowed then
    s.dropKey.map fun s =>
      { s with
        key := some ⟨s.place, !s.inBrackets && s.blocks.head? = some s.place.column, s.found.length⟩
        keyAllowed := false }
  else .ok s

/-! ## Block collections -/

/-- Closes the block collections that are deeper than the column. -/
def closeDeeper (s : Layout) (column : Nat) : Layout :=
  if s.inBrackets then s
  else
    let closed := s.blocks.takeWhile (column < ·)
    { s with
      found := List.replicate closed.length .blockEnd ++ s.found
      blocks := s.blocks.dropWhile (column < ·) }

/-- Closes all block collections. -/
def closeAll (s : Layout) : Layout :=
  if s.inBrackets then s
  else
    { s with found := List.replicate s.blocks.length .blockEnd ++ s.found, blocks := [] }

/-- Opens a block collection at a column unless one is open there; its token goes before those found
after `position`. -/
def openBlock (s : Layout) (column position : Nat) (t : Token) : Layout :=
  if s.inBrackets || s.blocks.head?.any (column ≤ ·) then s
  else
    let later := s.found.length - position
    { s with
      found := s.found.take later ++ t :: s.found.drop later
      blocks := column :: s.blocks }

/-- Opens a block collection here, where one of its items or keys may begin. -/
def openHere (s : Layout) (t : Token) : Except Fault Layout :=
  if s.inBrackets then .ok s
  else if s.keyAllowed then .ok (s.openBlock s.place.column s.found.length t)
  else .error .misplacedIndicator

/-! ## The tokens -/

/-- A mark that no key may follow or precede: the start or the end of a document. -/
def marker (s : Layout) (t : Token) : Except Fault Layout :=
  s.closeAll.dropKey.map fun s => ({ s with keyAllowed := false }.emit t).skip 3

/-- A directive, up to the end of its line. -/
def directiveLine (s : Layout) : Except Fault Layout := do
  let s ← s.closeAll.dropKey
  let (t, rest) ← directive s.rest.tail
  return ({ s with keyAllowed := false }.emit t).toRest rest

/-- An opening bracket. -/
def openBracket (s : Layout) (t : Token) : Except Fault Layout :=
  s.beginKey.map fun s =>
    ({ s with outer := s.key :: s.outer, key := none, keyAllowed := true }.emit t).skip 1

/-- A closing bracket. -/
def closeBracket (s : Layout) (t : Token) : Except Fault Layout :=
  s.dropKey.map fun s =>
    let s :=
      match s.outer with
      | [] => s
      | k :: ks => { s with key := k, outer := ks }
    ({ s with keyAllowed := false }.emit t).skip 1

/-- A comma between brackets. -/
def separatorMark (s : Layout) : Except Fault Layout :=
  s.dropKey.map fun s => ({ s with keyAllowed := true }.emit .separator).skip 1

/-- The hyphen of an item. -/
def entryMark (s : Layout) : Except Fault Layout := do
  let s ← s.openHere .blockList
  let s ← s.dropKey
  return ({ s with keyAllowed := true }.emit .entry).skip 1

/-- The question mark of a key. -/
def keyMark (s : Layout) : Except Fault Layout := do
  let s ← s.openHere .blockMap
  let s ← s.dropKey
  return ({ s with keyAllowed := !s.inBrackets }.emit .key).skip 1

/-- The colon of a value. It makes a key of what may have been one. -/
def valueMark (s : Layout) : Except Fault Layout :=
  match s.key with
  | some k =>
    let later := s.found.length - k.position
    let s := { s with found := s.found.take later ++ Token.key :: s.found.drop later }
    let s := s.openBlock k.place.column k.position .blockMap
    .ok (({ s with key := none, keyAllowed := false }.emit .value).skip 1)
  | none =>
    (s.openHere .blockMap).map fun s =>
      ({ s with keyAllowed := !s.inBrackets }.emit .value).skip 1

/-- An anchor or an alias, given by what makes a token of its name. -/
def anchorMark (s : Layout) (make : String → Token) : Except Fault Layout := do
  let s ← s.beginKey
  let (name, rest) ← anchorName s.rest.tail
  return (s.emit (make name)).toRest rest

/-- A tag. -/
def tagMark (s : Layout) : Except Fault Layout := do
  let s ← s.beginKey
  let (t, rest) ← tagWord s.inBrackets s.rest
  return (s.emit t).toRest rest

/-- A text over indented lines. -/
def blockText (s : Layout) (style : Style) : Except Fault Layout := do
  let s ← s.dropKey
  let r ← block (style = .folded) s.margin (s.place.right 1) s.rest.tail
  return ({ s with keyAllowed := true }.emit (.scalar style (.ofList r.value))).moveTo r.place
    r.rest

/-- A text between quotes. -/
def quotedText (s : Layout) (style : Style) : Except Fault Layout := do
  let s ← s.beginKey
  let r ← quoted (style = .single) (s.place.right 1) s.rest.tail
  return (s.emit (.scalar style (.ofList r.value))).moveTo r.place r.rest

/-- A plain text. -/
def plainText (s : Layout) : Except Fault Layout := do
  let s ← s.beginKey
  let r ← plain s.inBrackets s.margin s.place s.rest
  let s := s.emit (.scalar .plain (.ofList r.value.text))
  return { s with keyAllowed := r.value.endsLine }.moveTo r.place r.rest

/-- Whether no token begins with the character. -/
def startsNothing (c : Char) : Bool :=
  c ∈ ['\t', '|', '>', '%', '@', '\x60']

/-- The token that begins with `c`, before `cs`. -/
def token (s : Layout) (c : Char) (cs : List Char) : Except Fault Layout :=
  let wordEnds := s.inBrackets || endsWord cs
  if c = '%' && s.place.column = 0 then s.directiveLine
  else if isMarker '-' s.place (c :: cs) then s.marker .documentStart
  else if isMarker '.' s.place (c :: cs) then s.marker .documentEnd
  else if c = '[' then s.openBracket .flowList
  else if c = '\x7b' then s.openBracket .flowMap
  else if c = ']' then s.closeBracket .flowListEnd
  else if c = '\x7d' then s.closeBracket .flowMapEnd
  else if c = ',' then s.separatorMark
  else if c = '-' && endsWord cs then s.entryMark
  else if c = '?' && wordEnds then s.keyMark
  else if c = ':' && wordEnds then s.valueMark
  else if c = '*' then s.anchorMark .alias
  else if c = '&' then s.anchorMark .anchor
  else if c = '!' then s.tagMark
  else if c = '|' && !s.inBrackets then s.blockText .literal
  else if c = '>' && !s.inBrackets then s.blockText .folded
  else if c = '\'' then s.quotedText .single
  else if c = '"' then s.quotedText .double
  else if startsNothing c then .error .unexpectedStart
  else s.plainText

/-- Goes on to the next token; `none` at the end of the text. -/
def step (s : Layout) : Except Fault (Layout × Bool) :=
  s.skipBlanks.refreshKeys.bind fun s =>
    let s := s.closeDeeper s.place.column
    match s.rest with
    | [] => s.closeAll.dropKey.map fun s => (s, false)
    | c :: cs => (s.token c cs).map fun s => (s, true)

/-- Goes on to the end of the text in at most `fuel` steps. -/
def run : Nat → Layout → Except Fault (List Token)
  | 0, s => .ok s.found.reverse
  | fuel + 1, s =>
    s.step.bind fun
      | (s, true) => run fuel s
      | (s, false) => .ok s.found.reverse

end Layout

/-- The tokens of a text. Each takes at least one character, so the fuel of its length suffices. -/
def tokens (cs : List Char) : Except Fault (List Token) :=
  Layout.run (cs.length + 1) { place := ⟨0, 0⟩, rest := cs }

end DagScaffold.Yaml
