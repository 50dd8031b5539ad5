import Mathlib
import DagScaffold.Proofs.Callables
import DagScaffold.Proofs.ImportLines
import DagScaffold.Proofs.Naming
import DagScaffold.Proofs.Validity

/-!
# The layout of the task module

The task module has the imports, an empty row behind them, and the functions in the order of the
pipeline with two empty rows between any two of them. A row is what stands between two line feeds.

* `pieces` : the rows of a text;
* `importRows`, `rows`, `layout` : the rows of the imports, of a function and of the module;
* `pieces_file_of_validate` : the module falls into these rows.
-/

namespace DagScaffold.TaskModule

open Dag (OneLine not_mem_of_mem_splitOn oneLine_append_iff textOfLines textOfLines_append
  textOfLines_cons
  textOfLines_eq_intercalate splitOn_textOfLines)
open Text (isBlankText)

/-! ## Rows of a text -/

/-- What stands between the line feeds of a text. -/
def pieces (text : String) : List String :=
  (text.toList.splitOn '\n').map .ofList

/-- A line of a text has no line feed. -/
theorem oneLine_of_mem_pieces {text row : String} (h : row ∈ pieces text) : OneLine row := by
  obtain ⟨piece, hpiece, rfl⟩ := List.mem_map.mp h
  rw [OneLine, String.toList_ofList]
  exact not_mem_of_mem_splitOn hpiece

/-- The lines of a text make up the text and a line feed. -/
theorem textOfLines_pieces (text : String) : textOfLines (pieces text) = text ++ "\n" := by
  have hne : pieces text ≠ [] := mt List.map_eq_nil_iff.mp (List.splitOn_ne_nil _ _)
  have hjoin : "\n".intercalate (pieces text) = text := by
    rw [← String.toList_inj, String.toList_intercalate, pieces, List.map_map]
    have hid : String.toList ∘ String.ofList = id := by
      funext cs
      exact String.toList_ofList
    rw [hid, List.map_id]
    exact List.intercalate_splitOn '\n'
  rw [textOfLines_eq_intercalate hne, hjoin]

/-- Cutting the lines of a text into rows does not change it. -/
theorem textOfLines_flatMap_pieces (ls : List String) :
    textOfLines (ls.flatMap pieces) = textOfLines ls := by
  induction ls with
  | nil => rfl
  | cons line ls ih =>
      rw [List.flatMap_cons, textOfLines_append, textOfLines_pieces, ih, textOfLines_cons]

/-- A text of rows falls into them, and nothing stands behind the last line feed. -/
theorem pieces_textOfLines {ls : List String} (h : ∀ line ∈ ls, OneLine line) :
    pieces (textOfLines ls) = ls ++ [""] := by
  have hid : String.ofList ∘ String.toList = id := by
    funext s
    exact String.ofList_toList
  rw [pieces, splitOn_textOfLines h, List.map_append, List.map_map, hid, List.map_id]
  rfl

/-! ## Rows of the module -/

/-- The rows of the imports: an empty one follows them if there are any. -/
def importRows (lines : List String) : List String :=
  if lines.isEmpty then [] else lines ++ [""]

/-- The rows of a function. The name of its task may take several of them. -/
def rows (t : Task) : List String :=
  ("def " ++ t.symbol ++ "(**context):") :: ((head t).tail.flatMap pieces ++ body t.code)

/-- The rows of the module of a project. -/
def layout (c : Config) : List String :=
  importRows (importLines c) ++ ["", ""].intercalate (c.tasks.map rows)

/-- The imports stand on lines of their own, with a blank line behind them. -/
theorem importBlock_eq_textOfLines (lines : List String) :
    importBlock lines = textOfLines (importRows lines) := by
  unfold importBlock importRows
  split_ifs with h
  · rfl
  · rw [textOfLines_append, textOfLines_eq_intercalate (mt List.isEmpty_iff.mpr h),
      String.append_assoc]
    rfl

/-- A function is the text of its rows. -/
theorem callable_eq_textOfLines_rows (t : Task) : callable t = textOfLines (rows t) := by
  obtain ⟨lines, hhead⟩ : ∃ lines, head t = ("def " ++ t.symbol ++ "(**context):") :: lines :=
    ⟨_, rfl⟩
  rw [callable_eq_textOfLines, rows, hhead, List.tail_cons, List.cons_append, textOfLines_cons,
    textOfLines_cons, textOfLines_append, textOfLines_append, textOfLines_flatMap_pieces]

/-- Two line feeds between texts of lines are two empty lines between the lines. -/
theorem intercalate_textOfLines (blocks : List (List String)) :
    "\n\n".intercalate (blocks.map textOfLines) = textOfLines (["", ""].intercalate blocks) := by
  induction blocks with
  | nil => rfl
  | cons block blocks ih =>
      cases blocks with
      | nil =>
          rw [List.map_singleton, String.intercalate_singleton, List.intercalate_singleton]
      | cons next blocks =>
          rw [List.map_cons] at ih
          rw [List.map_cons, List.map_cons, String.intercalate_cons_cons, ih,
            List.intercalate_cons_cons, textOfLines_append, textOfLines_append]
          rfl

/-- The module is the text of its rows. -/
theorem file_eq_textOfLines (c : Config) : file c = textOfLines (layout c) := by
  have hcallables : c.tasks.map callable = (c.tasks.map rows).map textOfLines := by
    rw [List.map_map]
    refine List.map_congr_left fun t _ => ?_
    rw [Function.comp_apply, callable_eq_textOfLines_rows]
  rw [file, layout, textOfLines_append, importBlock_eq_textOfLines, hcallables,
    intercalate_textOfLines]

/-! ## Rows without line feeds -/

/-- An import that a task asks for is one line. -/
theorem oneLine_of_imports {c : Config} {line : String} (h : Imports c line) : OneLine line := by
  obtain ⟨-, t, -, ls, hlines, written, hwritten, front, back, rfl, -⟩ := h
  have hfeed := hlines.not_mem_lineFeed _ hwritten
  rw [String.toList_append, String.toList_append, List.mem_append, List.mem_append, not_or,
    not_or] at hfeed
  exact hfeed.1.2

theorem oneLine_importRows (c : Config) : ∀ row ∈ importRows (importLines c), OneLine row := by
  unfold importRows
  split_ifs
  · exact fun row hrow => absurd hrow List.not_mem_nil
  · refine List.forall_mem_append.mpr ⟨?_, List.forall_mem_singleton.mpr (by decide)⟩
    exact fun row hrow => oneLine_of_imports (mem_importLines.mp hrow)

/-- The rows of a function have no line feeds. -/
theorem oneLine_rows (t : Task) : ∀ row ∈ rows t, OneLine row := by
  have hsymbol : OneLine t.symbol := fun hmem =>
    absurd (Symbol.isAllowed_of_mem_ofName hmem) (by decide)
  have hopening : OneLine ("def " ++ t.symbol ++ "(**context):") := by
    rw [oneLine_append_iff, oneLine_append_iff]
    exact ⟨⟨by decide, hsymbol⟩, by decide⟩
  refine List.forall_mem_cons.mpr ⟨hopening, List.forall_mem_append.mpr ⟨?_, oneLine_body t.code⟩⟩
  intro row hrow
  obtain ⟨line, -, hrow⟩ := List.mem_flatMap.mp hrow
  exact oneLine_of_mem_pieces hrow

/-- What is joined by a separator is in one of the blocks or in the separator. -/
theorem forall_mem_intercalate {α : Type} {P : α → Prop} {separator : List α}
    {blocks : List (List α)} (hseparator : ∀ a ∈ separator, P a)
    (h : ∀ block ∈ blocks, ∀ a ∈ block, P a) :
    ∀ a ∈ separator.intercalate blocks, P a := by
  induction blocks with
  | nil => exact fun a ha => absurd ha List.not_mem_nil
  | cons block blocks ih =>
      obtain ⟨hblock, hblocks⟩ := List.forall_mem_cons.mp h
      cases blocks with
      | nil => rwa [List.intercalate_singleton]
      | cons next blocks =>
          rw [List.intercalate_cons_cons, List.forall_mem_append, List.forall_mem_append]
          exact ⟨⟨hblock, hseparator⟩, ih hblocks⟩

/-- The rows of the module have no line feeds. -/
theorem oneLine_layout (c : Config) : ∀ row ∈ layout c, OneLine row := by
  refine List.forall_mem_append.mpr ⟨oneLine_importRows c, forall_mem_intercalate (by decide) ?_⟩
  intro block hblock
  obtain ⟨t, -, rfl⟩ := List.mem_map.mp hblock
  exact oneLine_rows t

/-! ## The last row -/

/-- The last row of a function is not blank. -/
theorem exists_getLast?_rows (t : Task) :
    ∃ last, (rows t).getLast? = some last ∧ isBlankText last = false := by
  obtain ⟨last, hlast, hclear⟩ := (isBody_body t.code).exists_getLast?
  refine ⟨last, ?_, hclear⟩
  rw [rows, List.getLast?_cons, List.getLast?_append, hlast]
  rfl

/-- Blocks that are joined end with the last of them. -/
theorem exists_intercalate_eq_append {α : Type} {separator last : List α} {blocks : List (List α)}
    (h : blocks.getLast? = some last) : ∃ front, separator.intercalate blocks = front ++ last := by
  induction blocks with
  | nil => cases h
  | cons block blocks ih =>
      cases blocks with
      | nil =>
          obtain rfl : block = last := Option.some.inj h
          exact ⟨[], List.intercalate_singleton⟩
      | cons next blocks =>
          obtain ⟨front, hfront⟩ := ih (by rwa [List.getLast?_cons_cons] at h)
          refine ⟨block ++ separator ++ front, ?_⟩
          rw [List.intercalate_cons_cons, hfront]
          simp only [List.append_assoc]

/-- The text of the module ends with a row that is not blank and a line feed. -/
theorem exists_file_eq_append {c : Config} (h : c.tasks ≠ []) :
    ∃ front last, file c = front ++ last ++ "\n" ∧ OneLine last ∧ isBlankText last = false := by
  obtain ⟨last, hlast, hclear⟩ := exists_getLast?_rows (c.tasks.getLast h)
  have hblock : (c.tasks.map rows).getLast? = some (rows (c.tasks.getLast h)) := by
    rw [List.getLast?_map, List.getLast?_eq_some_getLast h]
    rfl
  obtain ⟨blocks, hblocks⟩ : ∃ blocks, ["", ""].intercalate (c.tasks.map rows) =
      blocks ++ rows (c.tasks.getLast h) := exists_intercalate_eq_append hblock
  obtain ⟨before, hbefore⟩ := List.getLast?_eq_some_iff.mp hlast
  have hlayout : layout c = importRows (importLines c) ++ blocks ++ before ++ [last] := by
    rw [layout, hblocks, hbefore]
    simp only [List.append_assoc]
  have hrow : textOfLines [last] = last ++ "\n" := by
    rw [textOfLines_cons]
    exact String.append_empty
  have hone : OneLine last := oneLine_rows _ last (List.mem_of_getLast? hlast)
  refine ⟨textOfLines (importRows (importLines c) ++ blocks ++ before), last, ?_, hone, hclear⟩
  rw [file_eq_textOfLines, hlayout, textOfLines_append, hrow, String.append_assoc]

/-! ## The module of a validated project -/

/-- The body of a function is the body of its code, for every code. The module of a validated
project falls into its imports, which ascend, with one empty row behind them, and its functions in
the order of the pipeline with two empty rows between them: no import is empty, and the last row of
a function is never blank, so the text ends in one line feed. -/
theorem pieces_file_of_validate {p : Payload} {c : Config} (h : p.validate = .ok c) :
    (∀ code, IsBody code (body code)) ∧
      pieces (file c) =
        importRows (importLines c) ++ ["", ""].intercalate (c.tasks.map rows) ++ [""] ∧
      (importLines c).Pairwise (fun l l' => Text.bytes l < Text.bytes l') ∧ "" ∉ importLines c ∧
      (∀ t ∈ c.tasks, ∃ last, (rows t).getLast? = some last ∧ isBlankText last = false) ∧
      ∃ front last, file c = front ++ last ++ "\n" ∧ OneLine last ∧ isBlankText last = false := by
  have htasks : c.tasks ≠ [] := by
    intro hnil
    refine (Payload.wellFormed_of_validate h).symbols_nonempty ?_
    rw [Config.symbols, hnil]
    rfl
  have hpieces : pieces (file c) = layout c ++ [""] := by
    rw [file_eq_textOfLines, pieces_textOfLines (oneLine_layout c)]
  have hempty : "" ∉ importLines c := fun hmem => (mem_importLines.mp hmem).1 rfl
  exact ⟨isBody_body, hpieces, pairwise_bytes_importLines c, hempty,
    fun t _ => exists_getLast?_rows t, exists_file_eq_append htasks⟩

/-- A project with imports between blanks and more than once, and with codes that open and end with
blank lines; one of its codes is blank. -/
def spacedTexts : Payload where
  name := "demo"
  robin := "rbta"
  pipeline := [
    { id := "s1"
      tasks := [{
        id := "t1"
        name := "extract"
        imports := "import os\n\n  import abc \r\n"
        code := "\r\n a = 1\r\n\t\n  b\n\n " }] },
    { id := "s2"
      tasks := [{ id := "t2", name := "load \n it", imports := "import os", code := " \n\t" }] }]

/-- The rows of a module with two functions, of which one has blank lines and a carriage return in
its code. -/
theorem pieces_file_spacedTexts :
    spacedTexts.validate = .ok spacedTexts.toConfig ∧
      IsBody "\r\n a = 1\r\n\t\n  b\n\n " ["", "     a = 1", "", "      b"] ∧
      pieces (file spacedTexts.toConfig) =
        ["import abc", "import os", "", "def extract(**context):", "    \"\"\"",
          "    Task: extract", "    Priority: low", "    Pool Slots: 1", "    \"\"\"", "",
          "     a = 1", "", "      b", "", "", "def load___it(**context):", "    \"\"\"",
          "    Task: load ", " it", "    Priority: low", "    Pool Slots: 1", "    \"\"\"",
          "    pass", ""] := by
  have h : spacedTexts.validate = .ok spacedTexts.toConfig := by rfl
  obtain ⟨hbody, hpieces, -⟩ := pieces_file_of_validate h
  refine ⟨h, ?_, hpieces.trans (by decide +kernel)⟩
  have hrows : body "\r\n a = 1\r\n\t\n  b\n\n " = ["", "     a = 1", "", "      b"] := by
    decide +kernel
  rw [← hrows]
  exact hbody _

end DagScaffold.TaskModule
