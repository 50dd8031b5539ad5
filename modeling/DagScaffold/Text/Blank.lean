/-!
# Blank characters, trimming and lines

A character is blank when it has the White_Space property of the character database. Trimming drops
blanks from the ends of a text, and `lines` cuts a text after each line feed.

* `isBlank` : the property;
* `trim`, `trimEnd`, `isBlankText` : the ends of a text;
* `lines` : the lines of a text, each without its line feed or carriage return and line feed.
-/

namespace DagScaffold.Text

/-! ## Blank characters -/

/-- The characters with the White_Space property. -/
def isBlank (c : Char) : Bool :=
  let n := c.toNat
  n == 0x20 || (0x9 ≤ n && n ≤ 0xd) || n == 0x85 || n == 0xa0 || n == 0x1680 ||
    (0x2000 ≤ n && n ≤ 0x200a) || n == 0x2028 || n == 0x2029 || n == 0x202f || n == 0x205f ||
    n == 0x3000

/-! ## Trimming -/

/-- The characters left after dropping the blanks at the end. -/
def trimEndChars (cs : List Char) : List Char :=
  (cs.reverse.dropWhile isBlank).reverse

/-- The characters left after dropping the blanks at both ends. -/
def trimChars (cs : List Char) : List Char :=
  trimEndChars (cs.dropWhile isBlank)

/-- The text without the blanks at its end. -/
def trimEnd (s : String) : String :=
  .ofList (trimEndChars s.toList)

/-- The text without the blanks at both ends. -/
def trim (s : String) : String :=
  .ofList (trimChars s.toList)

/-- Whether the text holds blanks only. -/
def isBlankText (s : String) : Bool :=
  s.toList.all isBlank

/-! ## Lines -/

/-- A line read backwards, less the carriage return before its line feed. -/
def dropReturn : List Char → List Char
  | '\r' :: cs => cs
  | cs => cs

/-- The lines of `cs` after the characters `line`, which the current line has so far in reverse. A
carriage return counts as part of the line unless a line feed follows it. -/
def linesFrom (line : List Char) : List Char → List (List Char)
  | [] => if line.isEmpty then [] else [line.reverse]
  | c :: cs =>
    if c = '\n' then (dropReturn line).reverse :: linesFrom [] cs else linesFrom (c :: line) cs

/-- The lines of a text; a line feed at the end opens no further line. -/
def lines (s : String) : List String :=
  (linesFrom [] s.toList).map .ofList

end DagScaffold.Text
