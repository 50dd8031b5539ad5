import DagScaffold.Yaml.Scalar

/-!
# Tokens of a YAML text

The words of a YAML document: the marks of its structure, its texts, and the names of anchors, tags
and directives. The marks where a block collection starts and ends are tokens too, although the text
has nothing but indentation for them.

* `Token` : the words;
* `anchorName`, `tagWord`, `directive` : the words that begin with `&` or `*`, `!` and `%`.
-/

namespace DagScaffold.Yaml

/-- A word of a document. -/
inductive Token where
  | version (major minor : Nat)
  | tagHandle (handle pre : String)
  | documentStart
  | documentEnd
  | blockList
  | blockMap
  | blockEnd
  | flowList
  | flowListEnd
  | flowMap
  | flowMapEnd
  /-- The hyphen before an item of a block list. -/
  | entry
  /-- The comma between items in brackets. -/
  | separator
  | key
  | value
  | anchor (name : String)
  | alias (name : String)
  | tag (handle suffix : String)
  | scalar (style : Style) (text : String)
  deriving DecidableEq, Repr

/-! ## Anchors -/

/-- Whether the name of an anchor may end before the text. -/
def endsAnchor (cs : List Char) : Bool :=
  endsWord cs || cs.head?.any fun c => c ∈ ['?', ':', ',', ']', '\x7d', '%', '@', '\x60']

/-- Reads the name of an anchor or an alias. -/
def anchorName (cs : List Char) : Except Fault (String × List Char) :=
  let name := cs.takeWhile isNameChar
  let rest := cs.dropWhile isNameChar
  if !name.isEmpty && endsAnchor rest then .ok (.ofList name, rest) else .error .anchor

/-! ## Tags -/

/-- Reads an octet that is spelled by a percent sign and two digits. -/
def octet : List Char → Except Fault (Nat × List Char)
  | '%' :: a :: b :: rest =>
    match Text.hexValue a, Text.hexValue b with
    | some m, some n => .ok (16 * m + n, rest)
    | _, _ => .error .tag
  | _ => .error .tag

/-- Reads `n` further octets of a character whose first octets make up `value`. -/
def furtherOctets : Nat → Nat → List Char → Except Fault (Char × List Char)
  | 0, value, cs => .ok (Char.ofNat value, cs)
  | n + 1, value, cs =>
    (octet cs).bind fun o =>
      if o.1 / 64 = 2 then furtherOctets n (64 * value + o.1 % 64) o.2 else .error .tag

/-- Reads a character that is spelled by its octets. -/
def spelledChar (cs : List Char) : Except Fault (Char × List Char) :=
  (octet cs).bind fun o =>
    if o.1 < 0x80 then .ok (Char.ofNat o.1, o.2)
    else if o.1 / 32 = 6 then furtherOctets 1 (o.1 % 32) o.2
    else if o.1 / 16 = 14 then furtherOctets 2 (o.1 % 16) o.2
    else if o.1 / 8 = 30 then furtherOctets 3 (o.1 % 8) o.2
    else .error .tag

/-- Whether a character may stand in a tag. A tag within angle brackets may hold a few more. -/
def isTagChar (bracketed : Bool) (c : Char) : Bool :=
  isNameChar c || c ∈ [';', '/', '?', ':', '@', '&', '=', '+', '$', '.', '%', '!', '~', '*', '\'',
    '(', ')'] || (bracketed && c ∈ [',', '[', ']'])

/-- Reads at most `fuel` characters of a tag. -/
def tagChars (bracketed : Bool) : Nat → List Char → Except Fault (List Char × List Char)
  | 0, cs => .ok ([], cs)
  | _ + 1, [] => .ok ([], [])
  | fuel + 1, c :: cs =>
    if !isTagChar bracketed c then .ok ([], c :: cs)
    else if c = '%' then
      (spelledChar (c :: cs)).bind fun s =>
        (tagChars bracketed fuel s.2).map fun r => (s.1 :: r.1, r.2)
    else (tagChars bracketed fuel cs).map fun r => (c :: r.1, r.2)

/-- Reads the characters of a tag, of which there must be one. -/
def tagText (bracketed : Bool) (cs : List Char) : Except Fault (List Char × List Char) :=
  (tagChars bracketed cs.length cs).bind fun r => if r.1.isEmpty then .error .tag else .ok r

/-- The handle at the front of a tag, which opens with an exclamation mark: the mark, the name after
it and the mark at its end, if there is one. -/
def tagHandle (cs : List Char) : List Char × Bool × List Char :=
  let name := cs.tail.takeWhile isNameChar
  match cs.tail.dropWhile isNameChar with
  | '!' :: rest => ('!' :: name ++ ['!'], true, rest)
  | rest => ('!' :: name, false, rest)

/-- Reads a tag within angle brackets, which have been opened. -/
def bracketedTag (cs : List Char) : Except Fault (Token × List Char) :=
  (tagText true cs).bind fun r =>
    match r.2 with
    | '>' :: rest => .ok (.tag "" (.ofList r.1), rest)
    | _ => .error .tag

/-- Reads a tag with a handle, which is a single exclamation mark unless the tag has a second
one. -/
def handledTag (cs : List Char) : Except Fault (Token × List Char) :=
  match tagHandle cs with
  | (handle, true, rest) =>
    (tagText false rest).map fun r => (.tag (.ofList handle) (.ofList r.1), r.2)
  | (handle, false, rest) =>
    (tagChars false rest.length rest).map fun r =>
      match handle.tail ++ r.1 with
      | [] => (.tag "" "!", r.2)
      | suffix => (.tag "!" (.ofList suffix), r.2)

/-- Reads a tag. Between brackets a comma may follow it at once. -/
def tagWord (inBrackets : Bool) (cs : List Char) : Except Fault (Token × List Char) :=
  let read :=
    match cs with
    | '!' :: '<' :: rest => bracketedTag rest
    | cs => handledTag cs
  read.bind fun r =>
    if endsWord r.2 || (inBrackets && r.2.head? = some ',') then .ok r else .error .tag

/-! ## Directives -/

/-- Reads a number of at most nine digits. -/
def versionNumber (cs : List Char) : Except Fault (Nat × List Char) :=
  let ds := cs.takeWhile Char.isDigit
  if ds.isEmpty || 9 < ds.length then .error .directive
  else .ok (ds.foldl (fun n c => 10 * n + (c.toNat - '0'.toNat)) 0, cs.dropWhile Char.isDigit)

/-- Reads the version that a directive names. -/
def versionDirective (cs : List Char) : Except Fault (Token × List Char) :=
  (versionNumber (cs.dropWhile isBlank)).bind fun major =>
    match major.2 with
    | '.' :: rest =>
      (versionNumber rest).map fun minor => (.version major.1 minor.1, minor.2)
    | _ => .error .directive

/-- Reads the handle that a directive declares and what stands for it. -/
def handleDirective (cs : List Char) : Except Fault (Token × List Char) :=
  let cs := cs.dropWhile isBlank
  if cs.head? ≠ some '!' then .error .directive
  else
    let (handle, closed, rest) := tagHandle cs
    if !closed && handle ≠ ['!'] then .error .directive
    else if !(rest.head?.any isBlank) then .error .directive
    else
      (tagText true (rest.dropWhile isBlank)).bind fun pre =>
        if endsWord pre.2 then .ok (.tagHandle (.ofList handle) (.ofList pre.1), pre.2)
        else .error .directive

/-- Reads a directive after its percent sign, up to the end of its line. -/
def directive (cs : List Char) : Except Fault (Token × List Char) :=
  let name := cs.takeWhile isNameChar
  let rest := cs.dropWhile isNameChar
  let read :=
    if !endsWord rest then .error .directive
    else if name = ['Y', 'A', 'M', 'L'] then versionDirective rest
    else if name = ['T', 'A', 'G'] then handleDirective rest
    else .error .directive
  read.bind fun r => (lineEnd r.2).map fun rest => (r.1, rest)

end DagScaffold.Yaml
