/-!
# Characters of a YAML text

Which characters a text may hold, which of them end a line, and which separate words.

* `readable` : a text without its byte order mark and with one line break character for the three
  that count as a plain line break;
* `isBreak`, `isBlank`, `endsWord` : breaks, blanks and what cannot continue a word;
* `Place` : where a character stands.
-/

namespace DagScaffold.Yaml

/-! ## Classes of characters -/

/-- The line separator. -/
def lineSeparator : Char := Char.ofNat 0x2028

/-- The paragraph separator. -/
def paragraphSeparator : Char := Char.ofNat 0x2029

/-- The control character for the next line. -/
def nextLine : Char := Char.ofNat 0x85

/-- The byte order mark. -/
def byteOrderMark : Char := Char.ofNat 0xfeff

/-- Whether a character ends a line of a readable text. -/
def isBreak (c : Char) : Bool :=
  c = '\n' || c = lineSeparator || c = paragraphSeparator

/-- Whether a character is a blank within a line. -/
def isBlank (c : Char) : Bool :=
  c = ' ' || c = '\t'

/-- Whether no word goes on with the first character of the text: it is blank, a break or
missing. -/
def endsWord : List Char → Bool
  | [] => true
  | c :: _ => isBlank c || isBreak c

/-- Whether a character may stand in the name of an anchor, a directive or a tag handle. -/
def isNameChar (c : Char) : Bool :=
  c.isAlphanum || c = '_' || c = '-'

/-- Whether a text may hold a character at all. -/
def isAllowed (c : Char) : Bool :=
  let n := c.toNat
  n == 0x9 || n == 0xa || n == 0xd || (0x20 ≤ n && n ≤ 0x7e) || n == 0x85 ||
    (0xa0 ≤ n && n ≤ 0xd7ff) || (0xe000 ≤ n && n ≤ 0xfffd) || 0x10000 ≤ n

/-! ## Readable texts -/

/-- The text without a mark at its front. -/
def dropMark : List Char → List Char
  | [] => []
  | c :: cs => if c = byteOrderMark then cs else c :: cs

/-- The text with a line feed for a carriage return, for both of them together and for the control
character for the next line. -/
def unifyBreaks : List Char → List Char
  | [] => []
  | '\r' :: '\n' :: cs => '\n' :: unifyBreaks cs
  | c :: cs => (if c = '\r' ∨ c = nextLine then '\n' else c) :: unifyBreaks cs

/-- The characters of a text that a reader goes through, if all of them are allowed. A text may open
with a mark of its encoding and a second mark of no meaning. -/
def readable (s : String) : Option (List Char) :=
  let cs := dropMark s.toList
  if cs.all isAllowed then some (unifyBreaks (dropMark cs)) else none

/-! ## Places -/

/-- The place of a character: its line and its column, both counted from zero. -/
structure Place where
  line : Nat
  column : Nat
  deriving DecidableEq, Repr

/-- The place after a character. -/
def Place.after (p : Place) (c : Char) : Place :=
  if isBreak c then ⟨p.line + 1, 0⟩ else ⟨p.line, p.column + 1⟩

/-- The place after `n` characters of a line. -/
def Place.right (p : Place) (n : Nat) : Place :=
  ⟨p.line, p.column + n⟩

/-- Whether three characters at the start of a line stand for the start or the end of a document. -/
def isMarker (marker : Char) (p : Place) : List Char → Bool
  | a :: b :: c :: rest =>
    p.column = 0 && a = marker && b = marker && c = marker && endsWord rest
  | _ => false

/-- Whether a document starts or ends here. -/
def atMarker (p : Place) (cs : List Char) : Bool :=
  isMarker '-' p cs || isMarker '.' p cs

end DagScaffold.Yaml
