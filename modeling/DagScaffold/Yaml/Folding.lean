import DagScaffold.Yaml.Character

/-!
# Folding of lines

A text may go over several lines without holding their breaks. A `Gap` is what lies between two of
its pieces, and `Gap.fold` is what the gap stands for.
-/

namespace DagScaffold.Yaml

/-- What lies between two pieces of a text over several lines: nothing, blanks on one line, a break
and the breaks after it, or an escaped break and the breaks after it. -/
inductive Gap where
  | none
  | blanks (spaces : List Char)
  | breaks (first : Char) (others : List Char)
  | continued (others : List Char)
  deriving DecidableEq, Repr

namespace Gap

/-- The gap with one more blank. Blanks at the start of a line do not count. -/
def blank (g : Gap) (c : Char) : Gap :=
  match g with
  | none => .blanks [c]
  | blanks ss => .blanks (ss ++ [c])
  | g => g

/-- The gap with one more break. Blanks at the end of a line do not count. -/
def newLine (g : Gap) (c : Char) : Gap :=
  match g with
  | none => .breaks c []
  | blanks _ => .breaks c []
  | breaks first others => .breaks first (others ++ [c])
  | continued others => .continued (others ++ [c])

/-- What a gap stands for: a line feed becomes a space unless further breaks follow, which stand for
themselves. -/
def fold : Gap → List Char
  | none => []
  | blanks ss => ss
  | breaks first others =>
    if first = '\n' then (if others.isEmpty then [' '] else others) else first :: others
  | continued others => others

/-- Whether the gap reaches over the end of a line. -/
def crossesLine : Gap → Bool
  | none => false
  | blanks _ => false
  | breaks _ _ => true
  | continued _ => true

end Gap

end DagScaffold.Yaml
