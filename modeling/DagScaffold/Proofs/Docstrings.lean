import Mathlib
import DagScaffold.Proofs.Callables
import DagScaffold.Proofs.Fronts
import DagScaffold.Proofs.Naming

/-!
# Docstrings are read back

The docstring of a function stands between three quotes. A reader of such strings takes a backslash
together with the character behind it and stops at the first three quotes in a row that it comes
upon. Whatever the name of a task is, the reader stops at the quotes that end the docstring of its
function, and what it has read holds the name as it is.

* `readTriple?`, `resolve`, `docstring?` : the reader of docstrings;
* `readTriple?_docstringChars` : the text of a name is passed without an end in it;
* `resolve_docstringChars` : the name is found in that text;
* `docstring?_callable` : the docstring of a function.
-/

namespace DagScaffold.TaskModule

open Dag (not_mem_toString textOfLines textOfLines_append textOfLines_eq_intercalate)
open Manifest (splitAtFirst? splitAtFirst?_append)

/-! ## The reader of docstrings -/

/-- The characters up to the first three quotes in a row, as they stand there, and what follows
those. A backslash takes the next character with it. -/
def readTriple? : List Char → Option (List Char × List Char)
  | [] => none
  | '\\' :: c :: cs => (readTriple? cs).map fun out => ('\\' :: c :: out.1, out.2)
  | '"' :: '"' :: '"' :: cs => some ([], cs)
  | c :: cs => (readTriple? cs).map fun out => (c :: out.1, out.2)

/-- The characters that are meant: a backslash before a backslash or a quote is left out. -/
def resolve : List Char → List Char
  | [] => []
  | '\\' :: '\\' :: cs => '\\' :: resolve cs
  | '\\' :: '"' :: cs => '"' :: resolve cs
  | c :: cs => c :: resolve cs

/-- The first string between three quotes in a text, and what follows it. -/
def docstring? (text : String) : Option (String × String) :=
  (splitAtFirst? "\"\"\"".toList text.toList).bind fun parts =>
    (readTriple? parts.2).map fun out => (.ofList (resolve out.1), .ofList out.2)

/-- A character that opens neither an escape nor the closing quotes stands for itself. -/
theorem readTriple?_cons {c : Char} {cs : List Char} (hslash : c ≠ '\\')
    (hend : c = '"' → ¬['"', '"'] <+: cs) :
    readTriple? (c :: cs) = (readTriple? cs).map fun out => (c :: out.1, out.2) := by
  rw [readTriple?]
  · intro d ds hc _
    exact hslash hc
  · rintro rest hc rfl
    exact hend hc ⟨rest, rfl⟩

theorem resolve_cons {c : Char} (h : c ≠ '\\') (cs : List Char) :
    resolve (c :: cs) = c :: resolve cs := by
  rw [resolve]
  · intro ds hc _
    exact h hc
  · intro ds hc _
    exact h hc

/-! ## Plain text -/

/-- Whether there are neither backslashes nor quotes among the characters. -/
def IsPlain (cs : List Char) : Prop :=
  '\\' ∉ cs ∧ '"' ∉ cs

instance (cs : List Char) : Decidable (IsPlain cs) :=
  inferInstanceAs (Decidable (_ ∧ _))

theorem isPlain_append_iff {cs ds : List Char} : IsPlain (cs ++ ds) ↔ IsPlain cs ∧ IsPlain ds := by
  unfold IsPlain
  rw [List.mem_append, List.mem_append, not_or, not_or, and_and_and_comm]

theorem isPlain_cons_iff {c : Char} {cs : List Char} :
    IsPlain (c :: cs) ↔ (c ≠ '\\' ∧ c ≠ '"') ∧ IsPlain cs := by
  unfold IsPlain
  rw [List.mem_cons, List.mem_cons, not_or, not_or, and_and_and_comm, ne_comm, ne_comm (a := c)]

/-- A text without quotes and backslashes is read as it is. -/
theorem readTriple?_plain {cs : List Char} (h : IsPlain cs) (tail : List Char) :
    readTriple? (cs ++ tail) = (readTriple? tail).map fun out => (cs ++ out.1, out.2) := by
  induction cs with
  | nil => exact (Option.map_id' ).symm
  | cons c cs ih =>
      obtain ⟨⟨hslash, hquote⟩, hcs⟩ := isPlain_cons_iff.mp h
      rw [List.cons_append, readTriple?_cons hslash (fun hc => absurd hc hquote), ih hcs,
        Option.map_map]
      rfl

theorem resolve_plain {cs : List Char} (h : IsPlain cs) (tail : List Char) :
    resolve (cs ++ tail) = cs ++ resolve tail := by
  induction cs with
  | nil => rfl
  | cons c cs ih =>
      obtain ⟨⟨hslash, -⟩, hcs⟩ := isPlain_cons_iff.mp h
      rw [List.cons_append, resolve_cons hslash, ih hcs]
      rfl

/-! ## The text of a name -/

/-- A character that opens neither an escape nor three quotes is written as it is. -/
theorem docstringChars_cons {c : Char} {cs : List Char} (hslash : c ≠ '\\')
    (hthree : c = '"' → ¬['"', '"'] <+: cs) :
    docstringChars (c :: cs) = c :: docstringChars cs := by
  rw [docstringChars, if_neg hslash]
  rintro rest hc rfl
  exact hthree hc ⟨rest, rfl⟩

/-- A quote opens the text of a name only where one opens the name. -/
theorem head?_of_docstringChars {cs tail : List Char} (htail : tail.head? ≠ some '"')
    (h : (docstringChars cs ++ tail).head? = some '"') : cs.head? = some '"' := by
  fun_cases docstringChars cs with
  | case1 => exact absurd h htail
  | case2 cs => rfl
  | case3 cs => simp [docstringChars] at h
  | case4 c cs hthree hslash =>
      rw [docstringChars, if_neg hslash] at h
      · exact h
      · exact hthree

/-- Two quotes open the text of a name only where two open the name. -/
theorem twoQuotes_of_docstringChars {cs tail : List Char} (htail : tail.head? ≠ some '"')
    (h : ['"', '"'] <+: docstringChars cs ++ tail) : ['"', '"'] <+: cs := by
  obtain ⟨rest, hrest⟩ := h
  have hfirst : cs.head? = some '"' := head?_of_docstringChars htail (by rw [← hrest]; rfl)
  obtain ⟨cs, rfl⟩ := List.head?_eq_some_iff.mp hfirst
  by_cases hsecond : cs.head? = some '"'
  · obtain ⟨cs, rfl⟩ := List.head?_eq_some_iff.mp hsecond
    exact ⟨cs, rfl⟩
  · -- a quote on its own stands for itself, so the second quote comes from behind it
    have halone : ¬['"', '"'] <+: cs := by
      rintro ⟨rest, rfl⟩
      exact hsecond rfl
    rw [docstringChars_cons (by decide) fun _ => halone] at hrest
    have hbehind : '"' :: rest = docstringChars cs ++ tail := (List.cons.inj hrest).2
    refine absurd (head?_of_docstringChars htail ?_) hsecond
    rw [← hbehind]
    rfl

/-- The reader passes the text of a name, unless a quote follows it. -/
theorem readTriple?_docstringChars (cs : List Char) {tail : List Char}
    (htail : tail.head? ≠ some '"') :
    readTriple? (docstringChars cs ++ tail) =
      (readTriple? tail).map fun out => (docstringChars cs ++ out.1, out.2) := by
  fun_induction docstringChars cs with
  | case1 => exact Option.map_id'.symm
  | case2 cs ih =>
      simp only [List.cons_append, readTriple?, ih, Option.map_map]
      rfl
  | case3 cs _ ih =>
      simp only [List.cons_append, readTriple?, ih, Option.map_map]
      rfl
  | case4 c cs hthree hslash ih =>
      have hend : c = '"' → ¬['"', '"'] <+: docstringChars cs ++ tail := by
        intro hc htwo
        obtain ⟨rest, rfl⟩ := twoQuotes_of_docstringChars htail htwo
        exact hthree rest hc rfl
      rw [List.cons_append, readTriple?_cons hslash hend, ih, Option.map_map]
      rfl

/-- The name is what the text of a name means. -/
theorem resolve_docstringChars (cs tail : List Char) :
    resolve (docstringChars cs ++ tail) = cs ++ resolve tail := by
  fun_induction docstringChars cs with
  | case1 => rfl
  | case2 cs ih => simp only [List.cons_append, resolve, ih]
  | case3 cs _ ih => simp only [List.cons_append, resolve, ih]
  | case4 c cs _ hslash ih => rw [List.cons_append, resolve_cons hslash, ih, List.cons_append]

/-! ## The docstring of a function -/

/-- What the docstring of a task's function says before the name of the task. -/
def beforeName : String :=
  "\n" ++ indentation ++ "Task: "

/-- What it says behind the name. -/
def afterName (t : Task) : String :=
  "\n" ++ indentation ++ "Priority: " ++ t.priority.name ++ "\n" ++ indentation ++ "Pool Slots: " ++
    toString t.poolSlots.count ++ "\n" ++ indentation

/-- The text of a function behind the quotes that end its docstring. -/
def afterHead (t : Task) : String :=
  "\n" ++ textOfLines (body t.code)

theorem isPlain_afterName (t : Task) : IsPlain (afterName t).toList := by
  have hpriority : IsPlain t.priority.name.toList := by
    cases t.priority <;> decide
  have hslots : IsPlain (toString t.poolSlots.count).toList :=
    ⟨not_mem_toString (by decide) _, not_mem_toString (by decide) _⟩
  simp only [afterName, String.toList_append, isPlain_append_iff, hpriority, hslots, and_true]
  decide

/-- The text of a function is its lines up to the docstring's end, and what follows. -/
theorem callable_eq_append (t : Task) : callable t = "\n".intercalate (head t) ++ afterHead t := by
  have hhead : head t ≠ [] := by
    rw [head]
    exact List.cons_ne_nil _ _
  rw [callable_eq_textOfLines, textOfLines_append, textOfLines_eq_intercalate hhead, afterHead,
    String.append_assoc]

/-- The first three quotes in the text of a function stand before the text of its task's name. -/
theorem toList_callable (t : Task) :
    (callable t).toList =
      ("def " ++ t.symbol ++ "(**context):\n" ++ indentation).toList ++ ("\"\"\"".toList ++
        (beforeName.toList ++ (docstringChars t.name.toList ++ ((afterName t).toList ++
          ("\"\"\"".toList ++ (afterHead t).toList))))) := by
  rw [callable_eq_append]
  simp [head, docstringText, beforeName, afterName, indentation]

/-- The first three quotes in the text of a function open its docstring, and the reader that starts
behind them stops at the three quotes that end the last line before the body. What it has read names
the task, its priority and its slots as they are, whatever the name is. -/
theorem docstring?_callable (t : Task) :
    callable t = "\n".intercalate (head t) ++ afterHead t ∧
      docstring? (callable t) = some (beforeName ++ t.name ++ afterName t, afterHead t) := by
  refine ⟨callable_eq_append t, ?_⟩
  have hquotes : "\"\"\"".toList = '"' :: ['"', '"'] := rfl
  have hfront : '"' ∉ ("def " ++ t.symbol ++ "(**context):\n" ++ indentation).toList := by
    simp only [String.toList_append, List.mem_append, not_or]
    refine ⟨⟨⟨by decide, fun hmem => ?_⟩, by decide⟩, by decide⟩
    exact absurd (Symbol.isAllowed_of_mem_ofName hmem) (by decide)
  have hbehind : ((afterName t).toList ++ ("\"\"\"".toList ++ (afterHead t).toList)).head? ≠
      some '"' := by
    simp [afterName]
  have hread : readTriple? (beforeName.toList ++ (docstringChars t.name.toList ++
      ((afterName t).toList ++ ("\"\"\"".toList ++ (afterHead t).toList)))) =
        some (beforeName.toList ++ (docstringChars t.name.toList ++ ((afterName t).toList ++ [])),
          (afterHead t).toList) := by
    rw [readTriple?_plain (by decide), readTriple?_docstringChars _ hbehind,
      readTriple?_plain (isPlain_afterName t), hquotes]
    rfl
  rw [docstring?, toList_callable, hquotes, splitAtFirst?_append _ hfront, Option.bind_some,
    ← hquotes, hread, Option.map_some, resolve_plain (by decide), resolve_docstringChars,
    resolve_plain (isPlain_afterName t), resolve, List.append_nil]
  simp only [String.ofList_append, String.ofList_toList, String.append_assoc]

/-- A name that opens with five quotes and ends with a backslash. -/
example : docstring? (callable ⟨"t1", "\"\"\"\"\" \\", "", "", .low, .one, .python, none⟩) =
    some ("\n    Task: \"\"\"\"\" \\\n    Priority: low\n    Pool Slots: 1\n    ",
      "\n    pass\n") := by
  decide +kernel

end DagScaffold.TaskModule
