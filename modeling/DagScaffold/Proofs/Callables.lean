import Mathlib
import DagScaffold.Proofs.OneLine
import DagScaffold.Proofs.TextLines
import DagScaffold.TaskModule

/-!
# Functions of the task module

The body of a function has a line for each line of the task's code, less the blanks at the end of
the code, and a body of its own when the code is blank. Its last line is never blank.

* `Indents`, `IsBody` : the body of a code;
* `isBody_body` : the lines that are written are such a body;
* `callable_eq_textOfLines` : the lines of a function.
-/

namespace DagScaffold.TaskModule

open Dag (OneLine oneLine_append_iff textOfLines textOfLines_eq_intercalate)
open Text (HasLines TrimsEnd isBlankText)

/-! ## Bodies -/

/-- What a line of code becomes in a body: a blank line becomes the empty one, and any other line
stands behind the indentation as it is. -/
inductive Indents : String → String → Prop
  | blank {line : String} : isBlankText line = true → Indents line ""
  | code {line : String} : isBlankText line = false → Indents line (indentation ++ line)

/-- The lines of the body with the given code. A blank code has a statement that does nothing; else
what is left of the code without the blanks at its end gives a line of the body for each of its
lines, and the last of them is not blank. -/
inductive IsBody : String → List String → Prop
  | blank {code : String} : isBlankText code = true → IsBody code [indentation ++ "pass"]
  | code {code kept last : String} {ls rows : List String} : isBlankText code = false →
      TrimsEnd code kept → HasLines kept ls → List.Forall₂ Indents ls rows →
      rows.getLast? = some last → isBlankText last = false → IsBody code rows

/-- A line of code is indented unless it is blank. -/
theorem indents_bodyLine (line : String) : Indents line (bodyLine line) := by
  unfold bodyLine
  split_ifs with h
  · exact .blank h
  · exact .code (Bool.eq_false_of_not_eq_true h)

/-- A line of code is blank or not with its indentation. -/
theorem isBlankText_bodyLine (line : String) : isBlankText (bodyLine line) = isBlankText line := by
  unfold bodyLine
  split_ifs with h
  · rw [h]
    rfl
  · rw [Text.isBlankText_append]
    rfl

/-- The body of a function without code is a row that passes. -/
theorem body_of_isBlankText {code : String} (h : isBlankText code = true) :
    body code = [indentation ++ "pass"] :=
  if_pos h

/-- The body of a function has the lines of its code. -/
theorem body_of_not_isBlankText {code : String} (h : isBlankText code = false) :
    body code = (Text.lines (Text.trimEnd code)).map bodyLine := by
  rw [body, h]
  rfl

/-- The lines that are written for a code are its body. -/
theorem isBody_body (code : String) : IsBody code (body code) := by
  cases hblank : isBlankText code with
  | true =>
      rw [body_of_isBlankText hblank]
      exact .blank hblank
  | false =>
      have htrims := Text.trimsEnd_trimEnd code
      have hlines := Text.hasLines_lines (Text.trimEnd code)
      have hindents : List.Forall₂ Indents (Text.lines (Text.trimEnd code)) (body code) := by
        rw [body_of_not_isBlankText hblank, List.forall₂_map_right_iff]
        exact List.forall₂_same.mpr fun line _ => indents_bodyLine line
      obtain ⟨last, hlast, hclear⟩ :=
        hlines.exists_getLast? (htrims.ne_empty hblank) htrims.getLast?
      have hrow : (body code).getLast? = some (bodyLine last) := by
        rw [body_of_not_isBlankText hblank, List.getLast?_map, hlast]
        rfl
      exact .code hblank htrims hlines hindents hrow ((isBlankText_bodyLine last).trans hclear)

/-- The last row of a body is not blank. -/
theorem IsBody.exists_getLast? {code : String} {rows : List String} (h : IsBody code rows) :
    ∃ last, rows.getLast? = some last ∧ isBlankText last = false := by
  cases h with
  | blank _ => exact ⟨_, rfl, by decide⟩
  | code _ _ _ _ hlast hclear => exact ⟨_, hlast, hclear⟩

/-- The rows of a body have no line feeds. -/
theorem oneLine_body (code : String) : ∀ row ∈ body code, OneLine row := by
  cases hblank : isBlankText code with
  | true =>
      rw [body_of_isBlankText hblank]
      exact List.forall_mem_singleton.mpr (by decide)
  | false =>
      rw [body_of_not_isBlankText hblank]
      intro row hrow
      obtain ⟨line, hline, rfl⟩ := List.mem_map.mp hrow
      have hfeed : OneLine line := (Text.hasLines_lines _).not_mem_lineFeed line hline
      unfold bodyLine
      split_ifs
      · decide
      · exact oneLine_append_iff.mpr ⟨by decide, hfeed⟩

/-- A row of a body is empty or indented. -/
theorem indented_of_mem_body {code row : String} (h : row ∈ body code) :
    row = "" ∨ ∃ rest, row = indentation ++ rest := by
  cases hblank : isBlankText code with
  | true =>
      rw [body_of_isBlankText hblank, List.mem_singleton] at h
      exact .inr ⟨"pass", h⟩
  | false =>
      rw [body_of_not_isBlankText hblank] at h
      obtain ⟨line, -, rfl⟩ := List.mem_map.mp h
      unfold bodyLine
      split_ifs
      · exact .inl rfl
      · exact .inr ⟨line, rfl⟩

/-! ## Functions -/

/-- A function is the text of its head and of its body. -/
theorem callable_eq_textOfLines (t : Task) : callable t = textOfLines (head t ++ body t.code) := by
  rw [callable, textOfLines_eq_intercalate]
  rw [head, List.cons_append]
  exact List.cons_ne_nil _ _

end DagScaffold.TaskModule
