import DagScaffold.Text.Hexadecimal
import DagScaffold.Yaml.Fault
import DagScaffold.Yaml.Folding

/-!
# Texts of a YAML document

A text is written plainly, between quotes or over indented lines. Each way of writing has its own
rules for where the text ends, which breaks it holds and which characters it spells otherwise.

* `plain` : a text without marks around it;
* `quoted` : a text between single or double quotes;
* `block` : a text over indented lines.
-/

namespace DagScaffold.Yaml

/-- How a text is written. -/
inductive Style where
  | plain
  | single
  | double
  | literal
  | folded
  deriving DecidableEq, Repr

/-- What was read from the front of a text, and where the reading stopped. -/
structure Read (α : Type) where
  value : α
  place : Place
  rest : List Char
  deriving Repr

/-- The characters read so far before those that were read later. -/
def Read.prepend (cs : List Char) (r : Read (List Char)) : Read (List Char) :=
  { r with value := cs ++ r.value }

/-! ## Plain texts -/

/-- Whether a character ends a plain text between brackets. -/
def isBracketMark (c : Char) : Bool :=
  c = ',' || c = '[' || c = ']' || c = '\x7b' || c = '\x7d'

/-- Whether a text that goes on after a gap ends here instead: at a line with too little
indentation, at the start or end of a document, or at a comment. -/
def stopsAfterGap (inBrackets : Bool) (margin : Nat) (p : Place) (cs : List Char) : Bool :=
  (!inBrackets && p.column < margin) || atMarker p cs || cs.head? = some '#'

/-- Whether a plain text ends before the characters: at a colon that ends a word, or at a mark
between brackets. -/
def endsPlain (inBrackets : Bool) : List Char → Bool
  | [] => true
  | c :: cs => (c = ':' && endsWord cs) || (inBrackets && isBracketMark c)

/-- Whether a colon between brackets is one that cannot stand in a plain text. -/
def isStrayColon (inBrackets : Bool) : List Char → Bool
  | ':' :: c :: _ => inBrackets && (isBracketMark c || c = '?')
  | _ => false

/-- A plain text, and whether the gap after it reaches over the end of a line. -/
structure Plain where
  text : List Char
  endsLine : Bool
  deriving Repr

/-- The rest of a plain text after a gap. -/
def plainFrom (inBrackets : Bool) (margin : Nat) :
    Gap → Place → List Char → Except Fault (Read Plain)
  | g, p, [] => .ok ⟨⟨[], g.crossesLine⟩, p, []⟩
  | g, p, c :: cs =>
    if isBlank c then
      if c = '\t' && g.crossesLine && p.column < margin then .error .tabInIndentation
      else plainFrom inBrackets margin (g.blank c) (p.after c) cs
    else if isBreak c then plainFrom inBrackets margin (g.newLine c) (p.after c) cs
    else if g ≠ .none && stopsAfterGap inBrackets margin p (c :: cs) then
      .ok ⟨⟨[], g.crossesLine⟩, p, c :: cs⟩
    else if isStrayColon inBrackets (c :: cs) then .error .colonInBrackets
    else if endsPlain inBrackets (c :: cs) then .ok ⟨⟨[], g.crossesLine⟩, p, c :: cs⟩
    else
      (plainFrom inBrackets margin .none (p.after c) cs).map fun r =>
        { r with value := { r.value with text := g.fold ++ c :: r.value.text } }

/-- Reads a plain text. Outside brackets the lines after the first have at least `margin` blanks. -/
def plain (inBrackets : Bool) (margin : Nat) (p : Place) (cs : List Char) :
    Except Fault (Read Plain) :=
  plainFrom inBrackets margin .none p cs

/-! ## Texts between quotes -/

/-- The character that an escape of one letter stands for. -/
def simpleEscape (c : Char) : Option Char :=
  match c with
  | '0' => some '\x00'
  | 'a' => some '\x07'
  | 'b' => some '\x08'
  | 't' => some '\t'
  | '\t' => some '\t'
  | 'n' => some '\n'
  | 'v' => some '\x0b'
  | 'f' => some '\x0c'
  | 'r' => some '\r'
  | 'e' => some '\x1b'
  | ' ' => some ' '
  | '"' => some '"'
  | '/' => some '/'
  | '\\' => some '\\'
  | 'N' => some nextLine
  | '_' => some (Char.ofNat 0xa0)
  | 'L' => some lineSeparator
  | 'P' => some paragraphSeparator
  | _ => none

/-- The number of digits of an escape by number. -/
def escapeDigits (c : Char) : Option Nat :=
  match c with
  | 'x' => some 2
  | 'u' => some 4
  | 'U' => some 8
  | _ => none

/-- Where the reading of a text between quotes stands: after a gap, after a backslash, or before the
last digits of an escape by number. -/
inductive QuotedState where
  | text (gap : Gap)
  | escape
  | digits (left value : Nat)
  deriving DecidableEq, Repr

/-- The rest of a text between quotes and what follows the closing quote. -/
def quotedFrom (single : Bool) :
    QuotedState → Place → List Char → Except Fault (Read (List Char))
  | _, _, [] => .error .quoted
  | .text g, p, c :: cs =>
    if isBlank c then quotedFrom single (.text (g.blank c)) (p.after c) cs
    else if isBreak c then quotedFrom single (.text (g.newLine c)) (p.after c) cs
    else if atMarker p (c :: cs) then .error .quoted
    else if single && c = '\'' then
      match cs with
      | '\'' :: rest =>
        (quotedFrom single (.text .none) (p.right 2) rest).map (.prepend (g.fold ++ ['\'']))
      | rest => .ok ⟨g.fold, p.after c, rest⟩
    else if !single && c = '"' then .ok ⟨g.fold, p.after c, cs⟩
    else if !single && c = '\\' then
      (quotedFrom single .escape (p.after c) cs).map (.prepend g.fold)
    else (quotedFrom single (.text .none) (p.after c) cs).map (.prepend (g.fold ++ [c]))
  | .escape, p, c :: cs =>
    if isBreak c then quotedFrom single (.text (.continued [])) (p.after c) cs
    else
      match simpleEscape c, escapeDigits c with
      | some d, _ => (quotedFrom single (.text .none) (p.after c) cs).map (.prepend [d])
      | none, some n => quotedFrom single (.digits n 0) (p.after c) cs
      | none, none => .error .quoted
  | .digits left value, p, c :: cs =>
    match Text.hexValue c with
    | none => .error .quoted
    | some d =>
      let n := 16 * value + d
      if 1 < left then quotedFrom single (.digits (left - 1) n) (p.after c) cs
      else if n.isValidChar then
        (quotedFrom single (.text .none) (p.after c) cs).map (.prepend [Char.ofNat n])
      else .error .quoted

/-- Reads a text whose opening quote has been read. -/
def quoted (single : Bool) (p : Place) (cs : List Char) : Except Fault (Read (List Char)) :=
  quotedFrom single (.text .none) p cs

/-! ## Texts over indented lines -/

/-- What becomes of the breaks at the end of a text: none is kept, the first or all of them. -/
inductive Chomp where
  | strip
  | clip
  | keep
  deriving DecidableEq, Repr

/-- The breaks that are kept, given the one that ends the last line and those after it. -/
def Chomp.kept (k : Chomp) (lineEnd others : List Char) : List Char :=
  match k with
  | strip => []
  | clip => lineEnd
  | keep => lineEnd ++ others

/-- The sign of a way to end a text. -/
def Chomp.ofSign? (c : Char) : Option Chomp :=
  if c = '-' then some .strip else if c = '+' then some .keep else none

/-- The first line of a text over indented lines: how the text ends and how much deeper than its
surroundings its lines are, if the line says so. -/
structure BlockHeader where
  chomp : Chomp
  deeper : Option Nat
  deriving DecidableEq, Repr

/-- Reads a digit other than zero, if a digit stands at the front. -/
def deeperDigit : List Char → Except Fault (Option Nat × List Char)
  | [] => .ok (none, [])
  | c :: cs =>
    if c = '0' then .error .blockHeader
    else if c.isDigit then .ok (some (c.toNat - '0'.toNat), cs)
    else .ok (none, c :: cs)

/-- Reads a sign, if one stands at the front. -/
def chompSign : List Char → Chomp × List Char
  | [] => (.clip, [])
  | c :: cs =>
    match Chomp.ofSign? c with
    | some k => (k, cs)
    | none => (.clip, c :: cs)

/-- Reads the sign and the digit of the first line in either order. -/
def blockMarks (cs : List Char) : Except Fault (BlockHeader × List Char) :=
  match cs.head?.bind Chomp.ofSign? with
  | some k => (deeperDigit cs.tail).map fun r => (⟨k, r.1⟩, r.2)
  | none =>
    (deeperDigit cs).map fun r =>
      match r.1 with
      | some n => let s := chompSign r.2; (⟨s.1, some n⟩, s.2)
      | none => (⟨.clip, none⟩, r.2)

/-- The text after the blanks and the comment at the end of a line, which must end there. -/
def lineEnd (cs : List Char) : Except Fault (List Char) :=
  let rest := cs.dropWhile isBlank
  let rest := if rest.head? = some '#' then rest.dropWhile fun c => !isBreak c else rest
  match rest with
  | [] => .ok []
  | c :: cs => if isBreak c then .ok (c :: cs) else .error .lineEnd

/-- The depth of the deepest of the lines up to the first one with a text, and the breaks before
it. -/
def leadingLines (deepest : Nat) (breaks : List Char) :
    Place → List Char → Except Fault (Read (Nat × List Char))
  | p, [] => .ok ⟨(max deepest p.column, breaks), p, []⟩
  | p, c :: cs =>
    if c = ' ' then leadingLines deepest breaks (p.after c) cs
    else if c = '\t' then .error .tabInIndentation
    else if isBreak c then leadingLines (max deepest p.column) (breaks ++ [c]) (p.after c) cs
    else .ok ⟨(max deepest p.column, breaks), p, c :: cs⟩

/-- How the lines of a text are read. -/
structure BlockForm where
  folded : Bool
  chomp : Chomp
  /-- The indentation of the lines. -/
  indent : Nat
  deriving DecidableEq, Repr

/-- What stands between two lines: the break at the end of the first one and those after it. A
folded text has a space for a single break between two lines that open with no blank. -/
def BlockForm.between (form : BlockForm) (lineEnd others : List Char) (openBlank : Bool) :
    List Char :=
  if form.folded && lineEnd = ['\n'] && !openBlank then
    if others.isEmpty then [' '] else others
  else lineEnd ++ others

/-- Where the reading of the lines stands: within a line, or before the text of the next one. Both
know whether the last line opened with a blank. -/
inductive BlockState where
  | line (openBlank : Bool)
  | indentation (lineEnd others : List Char) (openBlank : Bool)
  deriving DecidableEq, Repr

/-- The rest of a text over indented lines. -/
def blockFrom (form : BlockForm) :
    BlockState → Place → List Char → Except Fault (Read (List Char))
  | .line _, p, [] => .ok ⟨[], p, []⟩
  | .line b, p, c :: cs =>
    if isBreak c then blockFrom form (.indentation [c] [] b) (p.after c) cs
    else (blockFrom form (.line b) (p.after c) cs).map (.prepend [c])
  | .indentation lineEnd others _, p, [] => .ok ⟨form.chomp.kept lineEnd others, p, []⟩
  | .indentation lineEnd others b, p, c :: cs =>
    if p.column < form.indent && c = ' ' then
      blockFrom form (.indentation lineEnd others b) (p.after c) cs
    else if p.column < form.indent && c = '\t' then .error .tabInIndentation
    else if isBreak c then
      blockFrom form (.indentation lineEnd (others ++ [c]) b) (p.after c) cs
    else if p.column = form.indent then
      (blockFrom form (.line (isBlank c)) (p.after c) cs).map
        (.prepend (form.between lineEnd others (b || isBlank c) ++ [c]))
    else .ok ⟨form.chomp.kept lineEnd others, p, c :: cs⟩

/-- Reads the lines below the first one. -/
def blockLines (folded : Bool) (margin : Nat) (header : BlockHeader) (p : Place) (cs : List Char) :
    Except Fault (Read (List Char)) :=
  match header.deeper with
  | some n => blockFrom ⟨folded, header.chomp, margin - 1 + n⟩ (.indentation [] [] false) p cs
  | none =>
    (leadingLines 0 [] p cs).bind fun lead =>
      blockFrom ⟨folded, header.chomp, max lead.value.1 (max margin 1)⟩
        (.indentation [] lead.value.2 false) lead.place lead.rest

/-- Reads a text over indented lines whose opening mark has been read. Its lines have at least
`margin` blanks and at least one. -/
def block (folded : Bool) (margin : Nat) (p : Place) (cs : List Char) :
    Except Fault (Read (List Char)) :=
  (blockMarks cs).bind fun header =>
    (lineEnd header.2).bind fun
      | [] => .ok ⟨[], p.right cs.length, []⟩
      | c :: rest => blockLines folded margin header.1 (p.after c) rest

end DagScaffold.Yaml
