import DagScaffold.Text.Hexadecimal
import DagScaffold.Text.VisibleTable

/-!
# Quotations for a reader

A quotation shows a text between double quotes so that every character of it can be seen: a
character with a shape of its own stands for itself, any other is spelled as an escape.

* `quotation` : the quotation of a text.
-/

namespace DagScaffold.Text

/-- Whether `n` is in one of the inclusive ranges. -/
def isShapeless (n : Nat) : Bool :=
  shapelessRanges.any fun r => decide (r.1 ≤ n) && decide (n ≤ r.2)

/-- How a quotation shows one character. -/
def showChar (c : Char) : List Char :=
  if c = '"' then ['\\', '"']
  else if c = '\\' then ['\\', '\\']
  else if c = '\n' then ['\\', 'n']
  else if c = '\r' then ['\\', 'r']
  else if c = '\t' then ['\\', 't']
  else if c.toNat = 0 then ['\\', '0']
  else if isShapeless c.toNat then ['\\', 'u', '\x7b'] ++ hexDigits c.toNat ++ ['\x7d']
  else [c]

/-- The quotation of a text. -/
def quotation (s : String) : String :=
  .ofList ('"' :: s.toList.flatMap showChar ++ ['"'])

end DagScaffold.Text
