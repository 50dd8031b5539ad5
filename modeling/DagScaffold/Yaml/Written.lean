import DagScaffold.Yaml.Character
import DagScaffold.Yaml.Scalar
import DagScaffold.Yaml.Schema

/-!
# Texts as a YAML document writes them

A text is written in the simplest way that reads back as the same text: plainly if it can be,
between single quotes if it would mean something else or look like a mark, between double quotes if
it holds characters that must be spelled. A text with line feeds is written over indented lines.

* `style` : the way in which a text is written;
* `written` : the text in its written form, whose further lines open with a given indentation.
-/

namespace DagScaffold.Yaml.Written

/-! ## Classes of characters -/

/-- Whether a character ends a line in any text. -/
def isLineEnd (c : Char) : Bool :=
  c = '\n' || c = '\r' || c = nextLine || c = lineSeparator || c = paragraphSeparator

/-- Whether a character can be shown as itself. -/
def isPrintable (c : Char) : Bool :=
  let n := c.toNat
  n == 0xa || (0x20 ≤ n && n ≤ 0x7e) ||
    (0xa0 ≤ n && n != 0xfeff && n != 0xfffe && n != 0xffff)

/-- Whether a word ends with the character after it; it does at the end of the text. -/
def separates (c : Option Char) : Bool :=
  c.all fun c => c = ' ' || c = '\t' || isLineEnd c

/-! ## What a text looks like -/

/-- Whether a text opens with three hyphens or dots. -/
def opensWithMarker : List Char → Bool
  | '-' :: '-' :: '-' :: _ => true
  | '.' :: '.' :: '.' :: _ => true
  | _ => false

/-- The characters that cannot open a plain text. -/
def openingMarks : List Char :=
  ['#', ',', '[', ']', '\x7b', '\x7d', '&', '*', '!', '|', '>', '\'', '"', '%', '@', '\x60']

/-- Whether a text opens like a mark of the document. -/
def opensWithMark : List Char → Bool
  | [] => false
  | c :: cs => c ∈ openingMarks || ((c = '?' || c = '-') && separates cs.head?)

/-- Whether a colon in a text could end a key. -/
def hasKeyColon : List Char → Bool
  | [] => false
  | c :: cs => (c = ':' && separates cs.head?) || hasKeyColon cs

/-- Whether a number sign in a text could open a comment, given the character before the text. -/
def hasComment : Char → List Char → Bool
  | _, [] => false
  | before, c :: cs => (c = '#' && separates (some before)) || hasComment c cs

/-- Whether a part of a text could be taken for a mark of the document. -/
def looksLikeMark (cs : List Char) : Bool :=
  opensWithMarker cs || opensWithMark cs || hasKeyColon cs || hasComment ' ' cs

/-- Whether a character of the first class stands next before one of the second. -/
def hasPair (first second : Char → Bool) : List Char → Bool
  | a :: b :: cs => (first a && second b) || hasPair first second (b :: cs)
  | _ => false

/-- Whether a character is a space. -/
def isSpace (c : Char) : Bool :=
  c = ' '

/-- Whether spaces stand at the end of a line that is not the last. -/
def hasSpacedLineEnd (cs : List Char) : Bool :=
  hasPair isSpace isLineEnd cs

/-- Whether spaces stand at the start of a line that is not the first. -/
def hasIndentedLine (cs : List Char) : Bool :=
  hasPair isLineEnd isSpace cs

/-- Whether a text holds a character that must be spelled. -/
def needsSpelling (cs : List Char) : Bool :=
  cs.any fun c => !isPrintable c

/-- Whether a text can be written plainly. -/
def plainAllowed (cs : List Char) : Bool :=
  !(cs.head?.any isSpace || cs.getLast?.any isSpace || cs.any isLineEnd || needsSpelling cs ||
    looksLikeMark cs)

/-- Whether a text can be written between single quotes. -/
def singleAllowed (cs : List Char) : Bool :=
  !(hasSpacedLineEnd cs || hasIndentedLine cs || needsSpelling cs)

/-- Whether a text can be written over indented lines. -/
def literalAllowed (cs : List Char) : Bool :=
  !(cs.getLast?.any isSpace || hasSpacedLineEnd cs || needsSpelling cs)

/-- Whether a plain text would stand for something else, or be a row of digits. -/
def meansOther (s : String) : Bool :=
  meaning s ≠ .text || hasNeedlessZero s.toList

/-- The way in which a text is written. -/
def style (s : String) : Style :=
  let cs := s.toList
  if '\n' ∈ cs then (if literalAllowed cs then .literal else .double)
  else if !meansOther s && plainAllowed cs then .plain
  else if singleAllowed cs then .single
  else .double

/-! ## The written forms -/

/-- The text between single quotes: a quote is doubled, and two blanks open every line but the
first. -/
def singleFrom (opensLine : Bool) : List Char → List Char
  | [] => (if opensLine then [' ', ' '] else []) ++ ['\'']
  | c :: cs =>
    if isLineEnd c then c :: singleFrom true cs
    else
      (if opensLine then [' ', ' '] else []) ++
        (if c = '\'' then ['\'', '\''] else [c]) ++ singleFrom false cs

/-- The digits of a number to the base sixteen in capital letters, at least `width` of them. -/
def hexDigits (width n : Nat) : List Char :=
  let ds := (Nat.toDigits 16 n).map Char.toUpper
  List.replicate (width - ds.length) '0' ++ ds

/-- The spelling of a character between double quotes. -/
def spelled (c : Char) : List Char :=
  '\\' ::
    (if c = '"' then ['"']
    else if c = '\\' then ['\\']
    else if c = '\x00' then ['0']
    else if c = '\x07' then ['a']
    else if c = '\x08' then ['b']
    else if c = '\t' then ['t']
    else if c = '\n' then ['n']
    else if c = '\x0b' then ['v']
    else if c = '\x0c' then ['f']
    else if c = '\r' then ['r']
    else if c = '\x1b' then ['e']
    else if c = nextLine then ['N']
    else if c = lineSeparator then ['L']
    else if c = paragraphSeparator then ['P']
    else if c.toNat ≤ 0xff then 'x' :: hexDigits 2 c.toNat
    else if c.toNat ≤ 0xffff then 'u' :: hexDigits 4 c.toNat
    else 'U' :: hexDigits 8 c.toNat)

/-- How a character stands between double quotes. -/
def doubleChar (c : Char) : List Char :=
  if isPrintable c && !isLineEnd c && c ≠ '"' && c ≠ '\\' then [c] else spelled c

/-- The text over indented lines: two blanks open every line that is not empty. -/
def literalFrom (opensLine : Bool) : List Char → List Char
  | [] => []
  | c :: cs =>
    if isLineEnd c then c :: literalFrom true cs
    else (if opensLine then [' ', ' '] else []) ++ c :: literalFrom false cs

/-- Whether a text is a break or ends in two of them. -/
def keepsBreaks (cs : List Char) : Bool :=
  match cs.reverse with
  | [c] => isLineEnd c
  | c :: d :: _ => isLineEnd c && isLineEnd d
  | [] => false

/-- The signs after the bar of a text over indented lines: how deep the lines are, if the first one
does not tell, and what becomes of the breaks at the end. -/
def literalSigns (cs : List Char) : List Char :=
  (if cs.head?.any fun c => isSpace c || isLineEnd c then ['2'] else []) ++
    (if !cs.getLast?.any isLineEnd then ['-'] else if keepsBreaks cs then ['+'] else [])

/-- The whole written form of a text. -/
def form (s : String) : List Char :=
  let cs := s.toList
  match style s with
  | .plain => cs
  | .single => '\'' :: singleFrom false cs
  | .double => '"' :: cs.flatMap doubleChar ++ ['"']
  | .literal => '|' :: literalSigns cs ++ '\n' :: literalFrom true cs
  | .folded => cs

/-- The text without the line feeds at its end. -/
def dropEndFeeds (cs : List Char) : List Char :=
  (cs.reverse.dropWhile (· = '\n')).reverse

/-- The text with an indentation after every line feed. -/
def indentLines (indent : List Char) (cs : List Char) : List Char :=
  cs.flatMap fun c => if c = '\n' then '\n' :: indent else [c]

end Written

/-- The written form of a text without line feeds at its end, with `indent` before its further
lines. -/
def written (indent : String) (s : String) : String :=
  .ofList (Written.indentLines indent.toList (Written.dropEndFeeds (Written.form s)))

end DagScaffold.Yaml
