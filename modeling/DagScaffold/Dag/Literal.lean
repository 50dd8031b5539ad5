/-!
# The generated language

Blocks of the generated files are indented. A text stands in them between quotes: a backslash stands
before the quote and before another backslash, and a line feed is spelled.

* `indentation` : the indentation of a block;
* `Dag.literal` : the literal of a text.
-/

namespace DagScaffold

/-- The indentation of a block. -/
def indentation : String := "    "

namespace Dag

/-- How a character stands in a literal between the given quotes. -/
def literalChar (quote c : Char) : List Char :=
  if c = '\\' then ['\\', '\\']
  else if c = '\n' then ['\\', 'n']
  else if c = quote then ['\\', c]
  else [c]

/-- The literal of the characters of a text. -/
def literalChars (quote : Char) (cs : List Char) : List Char :=
  quote :: cs.flatMap (literalChar quote) ++ [quote]

/-- The literal of a text between the given quotes. -/
def literal (quote : Char) (s : String) : String :=
  .ofList (literalChars quote s.toList)

/-- The literal of a text between single quotes. -/
def single (s : String) : String :=
  literal '\'' s

/-- The literal of a text between double quotes. -/
def double (s : String) : String :=
  literal '"' s

end Dag

end DagScaffold
