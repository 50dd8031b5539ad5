import Mathlib
import DagScaffold.Dag.Statement

/-!
# Texts on one line

A text without line feeds stands on one line of a file. Literals and numbers are such texts, and a
file of lines that are such texts falls into these lines again.

* `OneLine` : texts on one line, with what they are put together from;
* `oneLine_literal`, `oneLine_toString` : literals and numbers;
* `textOfLines_eq_intercalate`, `splitOn_textOfLines` : the lines of a file.
-/

namespace DagScaffold.Dag

/-! ## Texts on one line -/

/-- Whether a text stands on one line. -/
def OneLine (s : String) : Prop :=
  '\n' ∉ s.toList

instance (s : String) : Decidable (OneLine s) :=
  inferInstanceAs (Decidable (_ ∉ _))

/-- A text is on one line when both of its parts are. -/
theorem oneLine_append_iff {s t : String} : OneLine (s ++ t) ↔ OneLine s ∧ OneLine t := by
  rw [OneLine, String.toList_append, List.mem_append, not_or]
  rfl

/-- A literal is on one line, whatever its text. -/
theorem oneLine_literal (quote : Char) (hquote : quote ≠ '\n') (s : String) :
    OneLine (literal quote s) := by
  have hchar (c : Char) : '\n' ∉ literalChar quote c := by
    unfold literalChar
    split_ifs with hslash hfeed hself
    · decide
    · decide
    · rw [hself]
      simp [hquote.symm]
    · simpa using Ne.symm hfeed
  rw [OneLine, literal, String.toList_ofList, literalChars, List.mem_append, List.mem_cons,
    List.mem_flatMap]
  rintro ((hopen | ⟨c, -, hc⟩) | hclose)
  · exact hquote hopen.symm
  · exact hchar c hc
  · exact hquote (List.mem_singleton.mp hclose).symm

/-- A literal between single quotes is on one line. -/
theorem oneLine_single (s : String) : OneLine (single s) :=
  oneLine_literal '\'' (by decide) s

/-- A literal between double quotes is on one line. -/
theorem oneLine_double (s : String) : OneLine (double s) :=
  oneLine_literal '"' (by decide) s

/-- The digits of a number are its only characters. -/
theorem not_mem_toString {c : Char} (hc : c.isDigit = false) (n : Nat) :
    c ∉ (toString n).toList := by
  intro h
  rw [Nat.toString_eq_repr, Nat.repr_eq_ofList_toDigits, String.toList_ofList] at h
  rw [Nat.isDigit_of_mem_toDigits (by decide) (by decide) h] at hc
  cases hc

/-- The digits of an integer and a hyphen are its only characters. -/
theorem not_mem_toString_int {c : Char} (hc : c.isDigit = false) (hsign : c ≠ '-') (n : Int) :
    c ∉ (toString n).toList := by
  cases n with
  | ofNat n => exact not_mem_toString hc n
  | negSucc n =>
      show c ∉ ("-" ++ toString (n + 1)).toList
      rw [String.toList_append, List.mem_append, not_or]
      exact ⟨fun h => hsign (List.mem_singleton.mp h), not_mem_toString hc (n + 1)⟩

/-- A number is on one line. -/
theorem oneLine_toString (n : Nat) : OneLine (toString n) :=
  not_mem_toString (by decide) n

/-- An integer is on one line. -/
theorem oneLine_toString_int (n : Int) : OneLine (toString n) :=
  not_mem_toString_int (by decide) (by decide) n

/-- A character that is neither in the texts nor in the separator is not in the joined text. -/
theorem not_mem_intercalate {c : Char} {separator : String} {names : List String}
    (hseparator : c ∉ separator.toList) (h : ∀ name ∈ names, c ∉ name.toList) :
    c ∉ (separator.intercalate names).toList := by
  induction names with
  | nil => exact List.not_mem_nil
  | cons name names ih =>
      obtain ⟨hname, hnames⟩ := List.forall_mem_cons.mp h
      cases names with
      | nil => rwa [String.intercalate_singleton]
      | cons next names =>
          rw [String.intercalate_cons_cons, String.toList_append, String.toList_append,
            List.mem_append, List.mem_append, not_or, not_or]
          exact ⟨⟨hname, hseparator⟩, ih hnames⟩

/-- Texts on one line are on one line when they are joined by one that is. -/
theorem oneLine_intercalate {separator : String} {names : List String}
    (hseparator : OneLine separator) (h : ∀ name ∈ names, OneLine name) :
    OneLine (separator.intercalate names) :=
  not_mem_intercalate hseparator h

/-! ## Lines of a file -/

/-- The text of two lists of lines is that of the first one and that of the second one. -/
theorem textOfLines_append (ls ls' : List String) :
    textOfLines (ls ++ ls') = textOfLines ls ++ textOfLines ls' := by
  rw [textOfLines, List.map_append, String.join_append]
  rfl

theorem textOfLines_cons (line : String) (ls : List String) :
    textOfLines (line :: ls) = line ++ "\n" ++ textOfLines ls := by
  rw [textOfLines, List.map_cons, String.join_cons]
  rfl

/-- Line feeds between the lines and one behind them are line feeds behind all lines. -/
theorem textOfLines_eq_intercalate {ls : List String} (h : ls ≠ []) :
    textOfLines ls = "\n".intercalate ls ++ "\n" := by
  induction ls with
  | nil => exact absurd rfl h
  | cons line ls ih =>
      rw [textOfLines_cons]
      cases ls with
      | nil =>
          rw [String.intercalate_singleton]
          exact String.append_empty
      | cons next ls =>
          rw [ih (List.cons_ne_nil next ls), String.intercalate_cons_cons]
          simp only [String.append_assoc]

/-- No piece of a split holds the character that was split on. -/
theorem not_mem_of_mem_splitOn {a : Char} {cs piece : List Char} (h : piece ∈ cs.splitOn a) :
    a ∉ piece := by
  induction cs generalizing piece with
  | nil =>
      rw [List.splitOn_nil, List.mem_singleton] at h
      rw [h]
      exact List.not_mem_nil
  | cons c cs ih =>
      obtain ⟨first, rest, hsplit⟩ := List.exists_cons_of_ne_nil (List.splitOn_ne_nil a cs)
      rw [List.splitOn_cons_eq_if_modifyHead] at h
      split_ifs at h with hc
      · rcases List.mem_cons.mp h with rfl | h
        · exact List.not_mem_nil
        · exact ih h
      · rw [hsplit, List.modifyHead_cons] at h
        rcases List.mem_cons.mp h with rfl | h
        · rw [List.mem_cons, not_or]
          refine ⟨fun hac => hc ?_, ih (hsplit ▸ List.mem_cons_self)⟩
          rw [hac, beq_self_eq_true]
        · exact ih (hsplit ▸ List.mem_cons_of_mem _ h)

/-- Lines are found again by cutting their text at its line feeds. -/
theorem splitOn_textOfLines {lines : List String} (h : ∀ line ∈ lines, OneLine line) :
    (textOfLines lines).toList.splitOn '\n' = lines.map String.toList ++ [[]] := by
  induction lines with
  | nil => rfl
  | cons line lines ih =>
      obtain ⟨hline, hlines⟩ := List.forall_mem_cons.mp h
      have hchars : (textOfLines (line :: lines)).toList =
          line.toList ++ '\n' :: (textOfLines lines).toList := by
        simp [textOfLines]
      rw [hchars, List.splitOn_append_cons_self_of_not_mem hline, ih hlines]
      rfl

end DagScaffold.Dag
