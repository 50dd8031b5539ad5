import Mathlib
import DagScaffold.Proofs.Agreement
import DagScaffold.Proofs.Outline
import DagScaffold.Proofs.StrayReturns

/-!
# Where the lines of the generated files end

The files are put together from lines that line feeds end. Whoever reads the generated language ends
a line at a carriage return too, alone or with a line feed behind it. So a file falls into its lines
unless one of them holds a carriage return, and the values that a literal is made of can bring one.

* `physicalLines` : the lines that a reader of the generated language finds;
* `physicalLines_textOfLines_eq_iff` : texts that fall into the lines they were put together from;
* `HoldsReturn`, `Statement.freeTexts`, `ReturnInValues` : the values that can bring a carriage
  return into a DAG file;
* `physicalLines_of_validate` : the projects whose files fall into their lines.
-/

namespace DagScaffold.Dag

open DagScaffold.Symbol (IsIdentifier)

/-! ## Lines of the generated language -/

/-- Whether a text holds a carriage return. -/
def HoldsReturn (s : String) : Prop :=
  '\r' ∈ s.toList

instance (s : String) : Decidable (HoldsReturn s) :=
  inferInstanceAs (Decidable (_ ∈ _))

/-- The lines of `cs` after the characters `line`, which the current line has so far in reverse.
A line feed ends a line, and so does a carriage return with the line feed behind it, if there is
one. -/
def physicalFrom (line : List Char) : List Char → List (List Char)
  | [] => if line.isEmpty then [] else [line.reverse]
  | '\r' :: '\n' :: cs => line.reverse :: physicalFrom [] cs
  | c :: cs =>
    if c = '\n' ∨ c = '\r' then line.reverse :: physicalFrom [] cs else physicalFrom (c :: line) cs

/-- The lines that a reader of the generated language finds in a text. -/
def physicalLines (text : String) : List String :=
  (physicalFrom [] text.toList).map .ofList

/-- Of all characters but the carriage return the line feed ends a line. -/
theorem physicalFrom_cons {c : Char} (h : c ≠ '\r') (line cs : List Char) :
    physicalFrom line (c :: cs) =
      if c = '\n' then line.reverse :: physicalFrom [] cs else physicalFrom (c :: line) cs := by
  rw [physicalFrom]
  · simp only [h, or_false]
  · rintro cs' rfl
    exact absurd rfl h

/-- A row of characters that end no line goes on with the current line. -/
theorem physicalFrom_append {cs : List Char} (hfeed : '\n' ∉ cs) (hreturn : '\r' ∉ cs)
    (line rest : List Char) :
    physicalFrom line (cs ++ rest) = physicalFrom (cs.reverse ++ line) rest := by
  induction cs generalizing line with
  | nil => rfl
  | cons c cs ih =>
      obtain ⟨hc, hcs⟩ := not_or.mp (List.mem_cons.not.mp hfeed)
      obtain ⟨hc', hcs'⟩ := not_or.mp (List.mem_cons.not.mp hreturn)
      rw [List.cons_append, physicalFrom_cons (Ne.symm hc'), if_neg (Ne.symm hc), ih hcs hcs',
        List.reverse_cons, List.append_assoc]
      rfl

/-- No line that is found holds a carriage return. -/
theorem not_mem_return_of_mem_physicalFrom {line : List Char} (hline : '\r' ∉ line)
    (cs : List Char) :
    ∀ row ∈ physicalFrom line cs, '\r' ∉ row := by
  have hreverse {line : List Char} (h : '\r' ∉ line) : '\r' ∉ line.reverse := by
    rwa [List.mem_reverse]
  fun_induction physicalFrom line cs with
  | case1 line hempty => exact fun row hrow => absurd hrow List.not_mem_nil
  | case2 line hempty => exact List.forall_mem_singleton.mpr (hreverse hline)
  | case3 line cs ih => exact List.forall_mem_cons.mpr ⟨hreverse hline, ih List.not_mem_nil⟩
  | case4 line c cs _ hend ih =>
    exact List.forall_mem_cons.mpr ⟨hreverse hline, ih List.not_mem_nil⟩
  | case5 line c cs _ hend ih =>
      refine ih (List.mem_cons.not.mpr (not_or.mpr ⟨fun heq => hend ?_, hline⟩))
      exact .inr heq.symm

/-- Lines are found again unless one of them holds a carriage return. -/
theorem physicalLines_textOfLines_eq_iff {rows : List String} (h : ∀ row ∈ rows, OneLine row) :
    physicalLines (textOfLines rows) = rows ↔ ¬∃ row ∈ rows, HoldsReturn row := by
  constructor
  · rintro heq ⟨row, hrow, hreturn⟩
    rw [← heq] at hrow
    obtain ⟨cs, hcs, rfl⟩ := List.mem_map.mp hrow
    rw [HoldsReturn, String.toList_ofList] at hreturn
    exact not_mem_return_of_mem_physicalFrom List.not_mem_nil _ cs hcs hreturn
  · intro hreturn
    induction rows with
    | nil => rfl
    | cons row rows ih =>
        obtain ⟨hrow, hrows⟩ := List.forall_mem_cons.mp h
        obtain ⟨hrow', hrows'⟩ := not_or.mp ((List.exists_mem_cons_iff _ _ _).not.mp hreturn)
        have hchars : (textOfLines (row :: rows)).toList =
            row.toList ++ '\n' :: (textOfLines rows).toList := by
          simp [textOfLines]
        rw [physicalLines, hchars, physicalFrom_append hrow hrow', physicalFrom_cons (by decide),
          if_pos rfl, List.append_nil, List.reverse_reverse, List.map_cons, String.ofList_toList,
          ← physicalLines, ih hrows hrows']

/-! ## Carriage returns in statements -/

/-- Two texts hold a carriage return when one of them does. -/
@[simp]
theorem holdsReturn_append {s t : String} :
    HoldsReturn (s ++ t) ↔ HoldsReturn s ∨ HoldsReturn t := by
  rw [HoldsReturn, String.toList_append, List.mem_append]
  rfl

/-- A carriage return stands in a literal as it is. -/
theorem holdsReturn_literal {quote : Char} (hquote : quote ≠ '\r') (s : String) :
    HoldsReturn (literal quote s) ↔ HoldsReturn s := by
  have hchar (c : Char) : '\r' ∈ literalChar quote c ↔ '\r' = c := by
    unfold literalChar
    split_ifs with hslash hfeed hself
    · rw [hslash]
      decide
    · rw [hfeed]
      decide
    · rw [hself]
      simp [hquote.symm]
    · exact List.mem_singleton
  simp [HoldsReturn, literal, literalChars, hchar, hquote.symm]

/-- A literal between single quotes holds the carriage returns of its text. -/
@[simp]
theorem holdsReturn_single (s : String) : HoldsReturn (single s) ↔ HoldsReturn s :=
  holdsReturn_literal (by decide) s

/-- A literal between double quotes holds the carriage returns of its text. -/
@[simp]
theorem holdsReturn_double (s : String) : HoldsReturn (double s) ↔ HoldsReturn s :=
  holdsReturn_literal (by decide) s

/-- A carriage return is in the text of lines when it is in one of them. -/
theorem holdsReturn_textOfLines (rows : List String) :
    HoldsReturn (textOfLines rows) ↔ ∃ row ∈ rows, HoldsReturn row := by
  induction rows with
  | nil => simp [textOfLines, HoldsReturn]
  | cons row rows ih =>
      rw [textOfLines_cons, holdsReturn_append, holdsReturn_append, ih, List.exists_mem_cons_iff]
      simp [show ¬HoldsReturn "\n" by decide]

/-- The texts in a statement that are no names. -/
@[simp]
def Statement.freeTexts : Statement → List String
  | importLine line => [line]
  | comment text => [text]
  | assign _ expression => [expression]
  | defaultArgs owner _ => [owner]
  | openDag dagId scheduleVariable => [dagId, scheduleVariable]
  | operator op => [op.pool]
  | _ => []

/-- An identifier holds no carriage return. -/
theorem not_holdsReturn_identifier {name : String} (h : IsIdentifier name) : ¬HoldsReturn name :=
  not_mem_identifier h (by decide)

/-- The side of a dependency holds no carriage return. -/
theorem not_holdsReturn_node {n : Node} (h : n.Legible) : ¬HoldsReturn n.text :=
  not_mem_text (by decide) fun name hname => not_mem_identifier (h.2 name hname) (by decide)

/-- A number is written without a carriage return. -/
@[simp]
theorem not_holdsReturn_repr (n : Nat) : ¬HoldsReturn n.repr :=
  not_mem_toString (by decide) n

/-- A date is written without a carriage return. -/
@[simp]
theorem not_holdsReturn_dateCall (d : Date) : ¬HoldsReturn (Statement.dateCall d) := by
  have hyear : ¬HoldsReturn d.year.repr := not_mem_toString_int (by decide) (by decide) d.year
  simp +decide [Statement.dateCall, hyear]

/-- Only its free texts bring a carriage return into the lines of a legible statement. -/
theorem exists_holdsReturn_bareLines_iff {s : Statement} (h : s.Legible) :
    (∃ line ∈ s.bareLines, HoldsReturn line) ↔ ∃ text ∈ s.freeTexts, HoldsReturn text := by
  cases s with
  | importLine line => rfl
  | blank => decide
  | comment text => simp +decide [Statement.bareLines]
  | assign target expression =>
      have htarget := not_holdsReturn_identifier h
      simp +decide [Statement.bareLines, htarget]
  | defaultArgs owner startDate => simp +decide [Statement.bareLines]
  | openDag dagId scheduleVariable => simp +decide [Statement.bareLines]
  | sentinel name =>
      have hname := not_holdsReturn_identifier h
      simp +decide [Statement.bareLines, hname]
  | operator op =>
      have hsymbol := not_holdsReturn_identifier h
      simp +decide [Statement.bareLines, Statement.operatorLines, hsymbol]
  | edge e =>
      have hsource := not_holdsReturn_node h.1
      have htarget := not_holdsReturn_node h.2
      simp +decide [Statement.bareLines, Edge.text, hsource, htarget]

/-- A carriage return is in the lines of legible statements when it is in a free text of one of
them. -/
theorem exists_holdsReturn_linesFrom_iff {indent : String} (hindent : ¬HoldsReturn indent)
    {ss : List Statement} (h : ∀ s ∈ ss, s.Legible) :
    (∃ line ∈ linesFrom indent ss, HoldsReturn line) ↔
      ∃ s ∈ ss, ∃ text ∈ s.freeTexts, HoldsReturn text := by
  induction ss generalizing indent with
  | nil => simp [linesFrom]
  | cons s ss ih =>
      obtain ⟨hs, hss⟩ := List.forall_mem_cons.mp h
      have hafter : ¬HoldsReturn (s.indentAfter indent) := by
        cases s with
        | openDag dagId scheduleVariable =>
            rw [Statement.indentAfter]
            decide
        | _ => exact hindent
      have hindented : (∃ line ∈ s.bareLines.map (indent ++ ·), HoldsReturn line) ↔
          ∃ text ∈ s.freeTexts, HoldsReturn text := by
        simp only [List.mem_map, exists_exists_and_eq_and, holdsReturn_append, hindent, false_or]
        exact exists_holdsReturn_bareLines_iff hs
      have hlines : (∃ line ∈ s.lines indent, HoldsReturn line) ↔
          ∃ text ∈ s.freeTexts, HoldsReturn text := by
        cases s with
        | blank =>
            rw [Statement.lines]
            decide
        | _ => exact hindented
      rw [linesFrom, List.exists_mem_cons_iff, ← ih hafter hss, ← hlines]
      simp only [List.mem_append, or_and_right, exists_or]

/-! ## Carriage returns in the files of a project -/

/-- Whether one of the values that a DAG file takes over as literals holds a carriage return: the
name of the environment, the schedule, the owner, or the pool of a task. -/
def ReturnInValues (settings : Settings) (c : Config) : Prop :=
  HoldsReturn (environmentName settings c) ∨ HoldsReturn c.cron ∨ HoldsReturn c.owner ∨
    ∃ task ∈ c.tasks, HoldsReturn (poolOf task c.pools settings.defaultPool)

/-- The schedule holds a carriage return when the one of the project does. -/
theorem holdsReturn_schedule_iff (c : Config) : HoldsReturn (schedule c) ↔ HoldsReturn c.cron := by
  unfold schedule
  split_ifs with h
  · rw [h]
    decide
  · exact holdsReturn_double c.cron

theorem not_holdsReturn_dagId {c : Config} (h : c.WellFormed) : ¬HoldsReturn c.dagId := by
  obtain ⟨-, hname⟩ := (Project.nameProblem?_eq_none_iff c.name).mp h.name_usable
  have hmap : '\r' ∉ c.name.toList.map fun x => if x = '-' then '_' else x := by
    intro hmem
    obtain ⟨x, hx, hreturn⟩ := List.mem_map.mp hmem
    split_ifs at hreturn with hhyphen
    · exact absurd hreturn (by decide)
    · exact absurd (hreturn ▸ hname x hx) (by decide)
  rw [Config.dagId, holdsReturn_append, not_or]
  refine ⟨by decide, ?_⟩
  rwa [HoldsReturn, String.toList_ofList]

/-- The imports hold no carriage return. -/
theorem not_holdsReturn_imports {c : Config} (h : c.WellFormed) :
    ¬∃ s ∈ imports c, ∃ text ∈ s.freeTexts, HoldsReturn text := by
  have hsymbol : ∀ symbol ∈ c.symbols, '\r' ∉ symbol.toList := by
    intro symbol hsymbol
    exact not_mem_identifier (h.plain.symbol_identifier symbol hsymbol) (by decide)
  have htask : ¬HoldsReturn (importFront ++ ", ".intercalate c.symbols) := by
    rw [holdsReturn_append, not_or]
    exact ⟨by decide, not_mem_intercalate (by decide) hsymbol⟩
  rw [imports, taskImport_of_ne_nil h.symbols_nonempty]
  simp +decide [htask]

/-- The free texts of a DAG file that can bring a carriage return are the values of the project. -/
theorem exists_holdsReturn_statements_iff (settings : Settings) {c : Config} (h : c.WellFormed) :
    (∃ s ∈ statements settings c, ∃ text ∈ s.freeTexts, HoldsReturn text) ↔
      ReturnInValues settings c := by
  have hheader : (∃ s ∈ header settings c, ∃ text ∈ s.freeTexts, HoldsReturn text) ↔
      HoldsReturn (environmentName settings c) ∨ HoldsReturn c.cron ∨ HoldsReturn c.owner := by
    simp +decide [header, holdsReturn_schedule_iff, not_holdsReturn_dagId h]
  have hoperators : (∃ s ∈ operators settings c, ∃ text ∈ s.freeTexts, HoldsReturn text) ↔
      ∃ task ∈ c.tasks, HoldsReturn (poolOf task c.pools settings.defaultPool) := by
    constructor
    · rintro ⟨s, hs, text, htext, hreturn⟩
      obtain ⟨task, htask, hs⟩ := List.mem_flatMap.mp hs
      rcases List.mem_pair.mp hs with rfl | rfl
      · obtain rfl := List.mem_singleton.mp htext
        exact ⟨task, htask, hreturn⟩
      · exact absurd htext List.not_mem_nil
    · rintro ⟨task, htask, hreturn⟩
      exact ⟨_, List.mem_flatMap.mpr ⟨task, htask, List.mem_cons_self⟩, _,
        List.mem_singleton_self _, hreturn⟩
  have hflow : ¬∃ s ∈ flow c, ∃ text ∈ s.freeTexts, HoldsReturn text := by
    simp +decide [flow]
  simp only [statements, List.mem_append, or_and_right, exists_or, not_holdsReturn_imports h,
    hheader, hoperators, hflow, false_or, or_false, ReturnInValues, or_assoc]

/-- A line of a DAG file holds a carriage return when one of the values that it takes over does. -/
theorem exists_holdsReturn_file_line_iff (settings : Settings) {c : Config} (h : c.WellFormed) :
    (∃ line ∈ linesFrom "" (statements settings c), HoldsReturn line) ↔ ReturnInValues settings c :=
  (exists_holdsReturn_linesFrom_iff (by decide) (legible_of_mem_statements settings h)).trans
    (exists_holdsReturn_statements_iff settings h)

/-- A DAG file holds a carriage return when one of the values that it takes over does. -/
theorem holdsReturn_file_iff (settings : Settings) {c : Config} (h : c.WellFormed) :
    HoldsReturn (file settings c) ↔ ReturnInValues settings c :=
  (holdsReturn_textOfLines _).trans (exists_holdsReturn_file_line_iff settings h)

/-- The lines of a DAG file have no line feeds. -/
theorem oneLine_of_mem_file_lines (settings : Settings) {c : Config} (h : c.symbols ≠ []) :
    ∀ line ∈ linesFrom "" (statements settings c), OneLine line := by
  intro line hline
  have hpiece : line.toList ∈ (file settings c).toList.splitOn '\n' := by
    rw [splitOn_file settings h]
    exact List.mem_append_left _ (List.mem_map_of_mem hline)
  exact not_mem_of_mem_splitOn hpiece

/-- The DAG file of a validated project holds a carriage return exactly when one of the values that
it takes over as literals does, and falls into the lines of its statements exactly when none does.
The body of a function holds one, and does not fall into its lines, exactly when its code has a
stray return. -/
theorem physicalLines_of_validate {p : Payload} {c : Config} (h : p.validate = .ok c)
    (settings : Settings) :
    (HoldsReturn (file settings c) ↔ ReturnInValues settings c) ∧
    (physicalLines (file settings c) = linesFrom "" (statements settings c) ↔
      ¬ReturnInValues settings c) ∧
    ∀ task ∈ c.tasks,
      ((∃ row ∈ TaskModule.body task.code, HoldsReturn row) ↔ TaskModule.StrayReturn task.code) ∧
      (physicalLines (textOfLines (TaskModule.body task.code)) = TaskModule.body task.code ↔
        ¬TaskModule.StrayReturn task.code) ∧
      (¬TaskModule.StrayReturn task.code →
        ∀ line ∈ physicalLines (textOfLines (TaskModule.body task.code)),
          line = "" ∨ ∃ rest, line = indentation ++ rest) := by
  have hwell := Payload.wellFormed_of_validate h
  have hfile := physicalLines_textOfLines_eq_iff
    (oneLine_of_mem_file_lines settings hwell.symbols_nonempty)
  refine ⟨holdsReturn_file_iff settings hwell,
    hfile.trans (not_congr (exists_holdsReturn_file_line_iff settings hwell)), fun task _ => ?_⟩
  have hbody := TaskModule.exists_return_mem_body_iff task.code
  have hrows := (physicalLines_textOfLines_eq_iff (TaskModule.oneLine_body task.code)).trans
    (not_congr hbody)
  refine ⟨hbody, hrows, fun hstray line hline => ?_⟩
  rw [hrows.mpr hstray] at hline
  exact TaskModule.indented_of_mem_body hline

/-- A project with a carriage return in the name of its owner, and with tasks of which the first one
has line ends of two characters and the second one a carriage return alone. -/
def strayingReturns : Payload where
  name := "demo"
  robin := "rbta"
  owner := "team\rops"
  pipeline := [
    { id := "s1",
      tasks := [{ id := "t1", name := "extract", code := "x = 1\r\ny = 2\r\n" },
        { id := "t2", name := "load", code := "x = 1\ry = 2" }] }]

/-- A carriage return in a literal and one in the code of a task are found, and a line end of two
characters is not. -/
theorem physicalLines_strayingReturns :
    strayingReturns.validate = .ok strayingReturns.toConfig ∧
      HoldsReturn (file {} strayingReturns.toConfig) ∧
      ∃ extract load, strayingReturns.toConfig.tasks = [extract, load] ∧
        ¬TaskModule.StrayReturn extract.code ∧ TaskModule.StrayReturn load.code ∧
        physicalLines (textOfLines (TaskModule.body extract.code)) =
          ["    x = 1", "    y = 2"] := by
  have h : strayingReturns.validate = .ok strayingReturns.toConfig := by rfl
  obtain ⟨hfile, -, hbodies⟩ := physicalLines_of_validate h {}
  obtain ⟨extract, load, htasks, hextract, hload⟩ : ∃ extract load,
      strayingReturns.toConfig.tasks = [extract, load] ∧
        TaskModule.body extract.code = ["    x = 1", "    y = 2"] ∧
        TaskModule.body load.code = ["    x = 1\ry = 2"] := ⟨_, _, rfl, rfl, rfl⟩
  rw [htasks, List.forall_mem_cons, List.forall_mem_singleton, hextract, hload] at hbodies
  obtain ⟨⟨hkept, hlines, -⟩, hstray, -⟩ := hbodies
  have hnot : ¬TaskModule.StrayReturn extract.code := mt hkept.mpr (by decide)
  refine ⟨h, hfile.mpr (.inr (.inr (.inl (by decide)))), extract, load, htasks, hnot, ?_, ?_⟩
  · exact hstray.mp (by decide)
  · rw [hextract]
    exact hlines.mpr hnot

/-- Not every DAG file is free of carriage returns, and not every body is. -/
theorem not_forall_physicalLines :
    ¬∀ (p : Payload) (c : Config), p.validate = .ok c → ∀ settings : Settings,
      ¬HoldsReturn (file settings c) ∧
        ∀ task ∈ c.tasks, ∀ row ∈ TaskModule.body task.code, ¬HoldsReturn row := by
  intro h
  have hvalidate : strayingReturns.validate = .ok strayingReturns.toConfig := by rfl
  obtain ⟨hfile, -⟩ := h strayingReturns strayingReturns.toConfig hvalidate {}
  have howner : HoldsReturn strayingReturns.toConfig.owner := by decide
  exact hfile ((holdsReturn_file_iff {} (Payload.wellFormed_of_validate hvalidate)).mpr
    (.inr (.inr (.inl howner))))

end DagScaffold.Dag
