import Mathlib
import DagScaffold.Proofs.ByteOrder
import DagScaffold.Proofs.TextLines
import DagScaffold.TaskModule

/-!
# The imports of the task module

The tasks of a project share one list of imports. It is ascending and holds each line once, so it
says which lines the tasks import and nothing about where or how often they do.

* `Imports` : the lines that the tasks of a project import;
* `pairwise_sortLines`, `mem_sortLines` : sorting without repetitions;
* `importLines_determined` : the list is ascending and determined by its lines.
-/

namespace DagScaffold.TaskModule

open Text (HasLines Trims)

/-! ## Sorting -/

theorem mem_insertLine {line l : String} {ls : List String} :
    l ∈ insertLine line ls ↔ l = line ∨ l ∈ ls := by
  induction ls with
  | nil => rw [insertLine, List.mem_singleton, or_iff_left List.not_mem_nil]
  | cons a ls ih =>
      unfold insertLine
      split_ifs with hlt heq
      · exact List.mem_cons
      · rw [heq, List.mem_cons, ← or_assoc, or_self]
      · rw [List.mem_cons, ih, List.mem_cons, or_left_comm]

/-- A line keeps an ascending list ascending when it is put in. -/
theorem pairwise_insertLine (line : String) {ls : List String} (h : ls.Pairwise (· < ·)) :
    (insertLine line ls).Pairwise (· < ·) := by
  induction ls with
  | nil => exact List.pairwise_singleton _ _
  | cons a ls ih =>
      obtain ⟨hfirst, hrest⟩ := List.pairwise_cons.mp h
      unfold insertLine
      split_ifs with hlt heq
      · refine List.pairwise_cons.mpr ⟨?_, h⟩
        intro l hl
        rcases List.mem_cons.mp hl with rfl | hl
        · exact hlt
        · exact lt_trans hlt (hfirst l hl)
      · exact h
      · have hafter : a < line := lt_of_le_of_ne (not_lt.mp hlt) (Ne.symm heq)
        refine List.pairwise_cons.mpr ⟨?_, ih hrest⟩
        intro l hl
        rcases mem_insertLine.mp hl with rfl | hl
        · exact hafter
        · exact hfirst l hl

/-- Sorting keeps the lines. -/
theorem mem_sortLines {line : String} {ls : List String} : line ∈ sortLines ls ↔ line ∈ ls := by
  induction ls with
  | nil => rfl
  | cons a ls ih =>
      rw [List.mem_cons, ← ih]
      exact mem_insertLine

/-- Sorted lines ascend, and none stands twice. -/
theorem pairwise_sortLines (ls : List String) : (sortLines ls).Pairwise (· < ·) := by
  induction ls with
  | nil => exact List.Pairwise.nil
  | cons a ls ih => exact pairwise_insertLine a ih

/-! ## Import lines -/

/-- Whether a task of the project imports the line: one of the lines of its imports is this one
between blanks. -/
def Imports (c : Config) (line : String) : Prop :=
  line ≠ "" ∧ ∃ t ∈ c.tasks, ∃ ls, HasLines t.imports ls ∧ ∃ written ∈ ls, Trims written line

/-- A task asks for its trimmed lines that are not empty. -/
theorem mem_taskImports {t : Task} {line : String} :
    line ∈ taskImports t ↔
      line ≠ "" ∧ ∃ ls, HasLines t.imports ls ∧ ∃ written ∈ ls, Trims written line := by
  rw [taskImports, List.mem_filter, List.mem_map, decide_eq_true_eq, and_comm]
  refine and_congr_right fun _ => ?_
  constructor
  · rintro ⟨written, hwritten, htrim⟩
    exact ⟨_, Text.hasLines_lines _, written, hwritten, (Text.trim_eq_iff _ _).mp htrim⟩
  · rintro ⟨ls, hlines, written, hwritten, htrims⟩
    rw [← (Text.lines_eq_iff _ _).mpr hlines] at hwritten
    exact ⟨written, hwritten, (Text.trim_eq_iff _ _).mpr htrims⟩

/-- The module imports the lines that its tasks ask for. -/
theorem mem_importLines {c : Config} {line : String} : line ∈ importLines c ↔ Imports c line := by
  rw [importLines, mem_sortLines, List.mem_flatMap]
  constructor
  · rintro ⟨t, ht, hline⟩
    obtain ⟨hne, hwritten⟩ := mem_taskImports.mp hline
    exact ⟨hne, t, ht, hwritten⟩
  · rintro ⟨hne, t, ht, hwritten⟩
    exact ⟨t, ht, mem_taskImports.mpr ⟨hne, hwritten⟩⟩

/-- The imports ascend in their bytes. -/
theorem pairwise_bytes_importLines (c : Config) :
    (importLines c).Pairwise fun l l' => Text.bytes l < Text.bytes l' := by
  have hascending : (importLines c).Pairwise (· < ·) := pairwise_sortLines _
  exact hascending.imp (Text.bytes_lt_bytes_iff _ _).mpr

/-- The import lines of a project ascend by their bytes and are the lines that its tasks import. So
two projects have the same list exactly when their tasks import the same lines, in whatever order of
steps and tasks, however often and between whatever blanks they stand there. -/
theorem importLines_determined (c : Config) :
    (importLines c).Pairwise (fun l l' => Text.bytes l < Text.bytes l') ∧
      (∀ line, line ∈ importLines c ↔ Imports c line) ∧
      ∀ c', importLines c' = importLines c ↔ ∀ line, Imports c' line ↔ Imports c line := by
  refine ⟨pairwise_bytes_importLines c, fun line => mem_importLines, fun c' => ?_⟩
  constructor
  · intro heq line
    rw [← mem_importLines, heq, mem_importLines]
  · intro h
    refine List.Pairwise.eq_of_mem_iff (pairwise_sortLines _) (pairwise_sortLines _) fun line => ?_
    exact mem_importLines.trans ((h line).trans mem_importLines.symm)

end DagScaffold.TaskModule
