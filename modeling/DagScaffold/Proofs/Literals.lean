import Mathlib
import DagScaffold.Proofs.OneLine

/-!
# Literals are read back

A reader of literals goes through the characters after the opening quote, takes a backslash together
with the character behind it and stops at the first quote that stands alone. On a literal it stops
at the closing quote, whatever follows, and has read the text that was put between the quotes.

* `escaped?`, `readFrom?`, `readLiteral?` : the reader of literals;
* `readFrom?_literalChar` : a character is read back from the way in which it stands in a literal;
* `literal_injective` : texts with one literal are the same;
* `readLiteral?_literal_append` : a literal is read up to its end.
-/

namespace DagScaffold.Dag

/-! ## The reader of literals -/

/-- What a character behind a backslash stands for between the given quotes. -/
def escaped? (quote c : Char) : Option Char :=
  if c = '\\' then some '\\'
  else if c = 'n' then some '\n'
  else if c = quote then some quote
  else none

/-- The characters up to the first quote that stands alone, and what follows it. The flag tells
whether a backslash was read last. -/
def readFrom? (quote : Char) : Bool → List Char → Option (List Char × List Char)
  | _, [] => none
  | true, c :: cs =>
    (escaped? quote c).bind fun d => (readFrom? quote false cs).map fun out => (d :: out.1, out.2)
  | false, c :: cs =>
    if c = '\\' then readFrom? quote true cs
    else if c = quote then some ([], cs)
    else (readFrom? quote false cs).map fun out => (c :: out.1, out.2)

/-- The value of the literal at the front of a text, and what follows the literal. -/
def readLiteral? (quote : Char) (text : String) : Option (String × String) :=
  match text.toList with
  | [] => none
  | c :: cs =>
    if c = quote then
      (readFrom? quote false cs).map fun out => (.ofList out.1, .ofList out.2)
    else none

/-! ## Reading what was written -/

/-- Whether a character can enclose literals: it takes no part in another escape. -/
structure Encloses (quote : Char) : Prop where
  ne_backslash : quote ≠ '\\'
  ne_letter : quote ≠ 'n'
  ne_lineFeed : quote ≠ '\n'

variable {quote : Char}

theorem encloses_of_isQuote (h : quote = '\'' ∨ quote = '"') : Encloses quote := by
  rcases h with rfl | rfl
  · exact ⟨by decide, by decide, by decide⟩
  · exact ⟨by decide, by decide, by decide⟩

/-- An escaped character is read back, with the rest of the literal behind it. -/
theorem readFrom?_literalChar (h : Encloses quote) (c : Char) (cs : List Char) :
    readFrom? quote false (literalChar quote c ++ cs) =
      (readFrom? quote false cs).map fun out => (c :: out.1, out.2) := by
  have hescape (d : Char) (hd : escaped? quote d = some c) :
      readFrom? quote false ('\\' :: d :: cs) =
        (readFrom? quote false cs).map fun out => (c :: out.1, out.2) := by
    rw [readFrom?, if_pos rfl, readFrom?, hd, Option.bind_some]
  unfold literalChar
  split_ifs with hslash hfeed hquote
  · exact hescape '\\' (by rw [hslash]; rfl)
  · exact hescape 'n' (by rw [hfeed]; rfl)
  · refine hescape c ?_
    rw [escaped?, hquote, if_neg h.ne_backslash, if_neg h.ne_letter, if_pos rfl]
  · rw [List.singleton_append, readFrom?, if_neg hslash, if_neg hquote]

/-- The characters of a literal are read up to its closing quote. -/
theorem readFrom?_flatMap (h : Encloses quote) (cs rest : List Char) :
    readFrom? quote false (cs.flatMap (literalChar quote) ++ quote :: rest) = some (cs, rest) := by
  induction cs with
  | nil => rw [List.flatMap_nil, List.nil_append, readFrom?, if_neg h.ne_backslash, if_pos rfl]
  | cons c cs ih =>
      rw [List.flatMap_cons, List.append_assoc, readFrom?_literalChar h, ih]
      rfl

theorem readLiteral?_append (h : Encloses quote) (v rest : String) :
    readLiteral? quote (literal quote v ++ rest) = some (v, rest) := by
  have hchars : (literal quote v ++ rest).toList =
      quote :: (v.toList.flatMap (literalChar quote) ++ quote :: rest.toList) := by
    simp [literal, literalChars]
  simp only [readLiteral?, hchars, if_true, readFrom?_flatMap h, Option.map_some,
    String.ofList_toList]

/-- Where two texts open with a literal each and are the same, their values are the same and so is
what follows. -/
theorem literal_append_inj (h : Encloses quote) {v w rest rest' : String}
    (heq : literal quote v ++ rest = literal quote w ++ rest') : v = w ∧ rest = rest' := by
  have hread := congrArg (readLiteral? quote) heq
  rw [readLiteral?_append h, readLiteral?_append h] at hread
  exact Prod.mk.inj (Option.some.inj hread)

/-- Different texts have different literals. -/
theorem literal_injective (h : Encloses quote) : Function.Injective (literal quote) := by
  intro v w heq
  exact (literal_append_inj h (congrArg (· ++ "") heq)).1

theorem single_injective : Function.Injective single :=
  literal_injective (encloses_of_isQuote (.inl rfl))

/-! ## Literals of generated files -/

/-- A literal between single or double quotes is read up to its closing quote and gives the text
that was written, whatever follows it. It holds no line feed, and no other text has the same
literal. -/
theorem readLiteral?_literal_append (h : quote = '\'' ∨ quote = '"') (v rest : String) :
    readLiteral? quote (literal quote v ++ rest) = some (v, rest) ∧ OneLine (literal quote v) ∧
      ∀ w, literal quote v = literal quote w → v = w := by
  have hencloses := encloses_of_isQuote h
  exact ⟨readLiteral?_append hencloses v rest, oneLine_literal quote hencloses.ne_lineFeed v,
    fun _ heq => literal_injective hencloses heq⟩

/-- A value with both quotes, a line feed and backslashes, one of them at its end. -/
theorem readLiteral?_literal_append_escaped :
    ('\'' = '\'' ∨ '\'' = '"') ∧ literal '\'' "it's \"\\n\"\n\\" = "'it\\'s \"\\\\n\"\\n\\\\'" ∧
      readLiteral? '\'' ("'it\\'s \"\\\\n\"\\n\\\\'" ++ "','") =
        some ("it's \"\\n\"\n\\", "','") := by
  have hquote : '\'' = '\'' ∨ '\'' = '"' := .inl rfl
  have hliteral : literal '\'' "it's \"\\n\"\n\\" = "'it\\'s \"\\\\n\"\\n\\\\'" := by rfl
  obtain ⟨hread, -, -⟩ := readLiteral?_literal_append hquote "it's \"\\n\"\n\\" "','"
  rw [hliteral] at hread
  exact ⟨hquote, hliteral, hread⟩

end DagScaffold.Dag
