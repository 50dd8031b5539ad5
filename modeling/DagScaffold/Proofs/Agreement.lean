import Mathlib
import DagScaffold.Proofs.OneLine
import DagScaffold.Proofs.Scope
import DagScaffold.TaskModule

/-!
# The task module and the DAG name the same tasks

The symbols of a validated project stand in five places: at the head of the functions in the task
module, in the import of these functions, in the operators, and on both sides of the dependencies.
Whoever reads the texts finds the same list, in the order of the pipeline and without repetitions.

* `TaskModule.functionName?`, `importedFunctions`, `operatorNames?` : the names that are read in the
  texts;
* `flatMap_names_linkFrom` : the names on the sides of the dependencies;
* `symbols_agree_of_validate` : the five lists are one.
-/

namespace DagScaffold

open DagScaffold.Manifest (afterFront? beforeEnd? splitAtFirst? afterFront?_append beforeEnd?_append
  splitAtFirst?_append)

/-! ## The heads of functions -/

namespace TaskModule

/-- The name of the function that a text defines. -/
def functionName? (text : String) : Option String :=
  (afterFront? "def ".toList text.toList).bind fun rest =>
    (splitAtFirst? "(**context):".toList rest).map fun parts => .ofList parts.1

/-- The name of the function of a task is the symbol of the task. -/
theorem functionName?_callable (t : Task) : functionName? (callable t) = some t.symbol := by
  obtain ⟨rest, hrest⟩ : ∃ rest, (callable t).toList =
      "def ".toList ++ (t.symbol.toList ++ ("(**context):".toList ++ rest)) := by
    refine ⟨("\n" ++ "\n".intercalate ((head t).tail ++ body t.code) ++ "\n").toList, ?_⟩
    simp only [← String.toList_append]
    rw [callable, head, List.cons_append, String.intercalate_cons_of_ne_nil (by simp)]
    simp only [List.tail_cons, String.append_assoc]
  have hmark : "(**context):".toList = '(' :: "**context):".toList := rfl
  have hfree : '(' ∉ t.symbol.toList := fun h =>
    absurd (Symbol.isAllowed_of_mem_ofName h) (by decide)
  rw [functionName?, hrest, afterFront?_append, Option.bind_some, hmark,
    splitAtFirst?_append rest hfree, Option.map_some, String.ofList_toList]

end TaskModule

namespace Dag

/-! ## The names in an import -/

/-- The front of the import of the functions. -/
def importFront : String := "from " ++ taskModuleName ++ " import "

/-- The names in a line, if it imports functions of the task module. -/
def functionsImported? (line : List Char) : Option (List String) :=
  (afterFront? importFront.toList line).map fun names => (importedNames names).map String.ofList

/-- The names in each line of a text that imports functions of the task module. -/
def importedFunctions (text : String) : List (List String) :=
  (text.toList.splitOn '\n').filterMap functionsImported?

/-! ## Names on one line -/

/-- A symbol has no line feed. -/
theorem oneLine_symbol {c : Config} {symbol : String} (h : symbol ∈ c.symbols) :
    OneLine symbol := by
  obtain ⟨t, -, rfl⟩ := List.mem_map.mp h
  intro hfeed
  exact absurd (Symbol.isAllowed_of_mem_ofName hfeed) (by decide)

/-- The text of a side holds the characters of its names and those that put them together. -/
theorem not_mem_text {c : Char} {n : Node} (hc : c ∉ "[, ]".toList)
    (h : ∀ name ∈ n.names, c ∉ name.toList) : c ∉ n.text.toList := by
  have hmark {mark : String} (hsubset : mark.toList ⊆ "[, ]".toList) : c ∉ mark.toList :=
    fun hmem => hc (hsubset hmem)
  cases n with
  | single name => exact h name (List.mem_singleton_self name)
  | group names =>
      rw [Node.text, String.toList_append, String.toList_append, List.mem_append, List.mem_append,
        not_or, not_or]
      exact ⟨⟨hmark (by decide), not_mem_intercalate (hmark (by decide)) h⟩, hmark (by decide)⟩

/-- The side of a dependency has no line feed. -/
theorem oneLine_node {n : Node} (h : ∀ name ∈ n.names, OneLine name) : OneLine n.text :=
  not_mem_text (by decide) h

/-! ## Lines of statements -/

/-- An operator with a symbol on one line has lines without line feeds. -/
theorem oneLine_operatorLines {op : Operator} (h : OneLine op.symbol) :
    ∀ line ∈ Statement.operatorLines op, OneLine line := by
  have hcomma : OneLine "," := by decide
  simp only [Statement.operatorLines, List.forall_mem_cons, oneLine_append_iff]
  refine ⟨⟨h, by decide⟩, ⟨⟨?_, oneLine_single op.symbol⟩, hcomma⟩, ⟨⟨?_, h⟩, hcomma⟩,
    ⟨⟨?_, oneLine_toString op.priorityWeight⟩, hcomma⟩, ⟨⟨?_, oneLine_single op.pool⟩, hcomma⟩,
    ⟨⟨?_, oneLine_toString op.poolSlots⟩, hcomma⟩, ?_, ?_, ?_⟩
  all_goals decide

/-- The statements of the operators and of the order hold no line feeds. -/
theorem oneLine_operators_flow {settings : Settings} {c : Config} {s : Statement}
    (hs : s ∈ operators settings c ++ flow c) : ∀ line ∈ s.bareLines, OneLine line := by
  rcases List.mem_append.mp hs with hs | hs
  · obtain ⟨t, ht, hs⟩ := List.mem_flatMap.mp hs
    simp only [List.mem_cons, List.not_mem_nil, or_false] at hs
    rcases hs with rfl | rfl
    · have hsymbol : t.symbol ∈ c.symbols := List.mem_map_of_mem ht
      exact oneLine_operatorLines (oneLine_symbol hsymbol)
    · exact List.forall_mem_singleton.mpr (by decide)
  · rcases List.mem_cons.mp hs with rfl | hs
    · exact List.forall_mem_singleton.mpr (by decide)
    · obtain ⟨e, he, rfl⟩ := List.mem_map.mp hs
      have hnames : ∀ name ∈ e.source.names ++ e.target.names, OneLine name := by
        intro name hname
        rcases mem_of_mem_linkFrom he hname with hstart | hsymbol | rfl
        · rw [List.mem_singleton.mp hstart]
          decide
        · rw [← c.symbols_eq_flatten] at hsymbol
          exact oneLine_symbol hsymbol
        · decide
      have hsource : OneLine e.source.text :=
        oneLine_node fun name hname => hnames name (List.mem_append_left _ hname)
      have htarget : OneLine e.target.text :=
        oneLine_node fun name hname => hnames name (List.mem_append_right _ hname)
      refine List.forall_mem_singleton.mpr ?_
      rw [Edge.text, oneLine_append_iff, oneLine_append_iff]
      exact ⟨⟨hsource, by decide⟩, htarget⟩

/-! ## Lines of a DAG file -/

/-- A line of a DAG file that does not import functions of the task module. -/
def IsOther (line : String) : Prop :=
  OneLine line ∧ afterFront? importFront.toList line.toList = none

instance (line : String) : Decidable (IsOther line) :=
  inferInstanceAs (Decidable (_ ∧ _))

/-- A line is no import when it opens with another character. -/
theorem isOther_append {front rest : String} (hfront : OneLine front)
    (hopen : ∃ c cs, front.toList = c :: cs ∧ c ≠ 'f') (hrest : OneLine rest) :
    IsOther (front ++ rest) := by
  obtain ⟨c, cs, hchars, hc⟩ := hopen
  refine ⟨oneLine_append_iff.mpr ⟨hfront, hrest⟩, ?_⟩
  have himport : importFront.toList = 'f' :: "rom src.treatment import ".toList := by rfl
  rw [himport, String.toList_append, hchars, List.cons_append, afterFront?, if_neg hc.symm]

/-- What holds of the lines of statements, outside and inside of a block, holds of the lines of a
text. -/
theorem forall_linesFrom {P : String → Prop} (hblank : P "") {indent : String}
    {ss : List Statement} (hlines : ∀ s ∈ ss, ∀ line ∈ s.bareLines, P (indent ++ line))
    (hblock : ∀ s ∈ ss, ∀ line ∈ s.bareLines, P (indentation ++ line)) :
    ∀ line ∈ linesFrom indent ss, P line := by
  induction ss generalizing indent with
  | nil => exact fun line hline => absurd hline List.not_mem_nil
  | cons s ss ih =>
      obtain ⟨hs, hss⟩ := List.forall_mem_cons.mp hlines
      obtain ⟨-, hssblock⟩ := List.forall_mem_cons.mp hblock
      have hhead : ∀ line ∈ s.lines indent, P line := by
        have heach : ∀ line ∈ s.bareLines.map (indent ++ ·), P line := by
          intro line hline
          obtain ⟨bare, hbare, rfl⟩ := List.mem_map.mp hline
          exact hs bare hbare
        cases s with
        | blank => exact List.forall_mem_singleton.mpr hblank
        | _ => exact heach
      have htail : ∀ line ∈ linesFrom (s.indentAfter indent) ss, P line := by
        cases s with
        | openDag => exact ih hssblock hssblock
        | _ => exact ih hss hssblock
      intro line hline
      rcases List.mem_append.mp hline with hline | hline
      · exact hhead line hline
      · exact htail line hline

/-- No statement before the operators imports functions. -/
theorem isOther_of_mem_header {settings : Settings} {c : Config} :
    ∀ s ∈ header settings c, ∀ line ∈ s.bareLines, IsOther line := by
  have hdate : OneLine (Statement.dateCall settings.startDate) := by
    simp only [Statement.dateCall, oneLine_append_iff, oneLine_toString, oneLine_toString_int,
      and_true]
    decide
  have hschedule : OneLine (schedule c) := by
    unfold schedule
    split_ifs
    · decide
    · exact oneLine_double c.cron
  have hcomma {s : String} (hs : OneLine s) : OneLine (s ++ ",") :=
    oneLine_append_iff.mpr ⟨hs, by decide⟩
  have hafter {s t : String} (hs : OneLine s) (ht : OneLine t) : OneLine (s ++ t) :=
    oneLine_append_iff.mpr ⟨hs, ht⟩
  have henvironment :
      IsOther ("custom_env_name" ++ (" = " ++ double (environmentName settings c))) :=
    isOther_append (by decide) ⟨_, _, rfl, by decide⟩ (hafter (by decide) (oneLine_double _))
  have hassign : IsOther (scheduleVariable ++ (" = " ++ schedule c)) :=
    isOther_append (by decide) ⟨_, _, rfl, by decide⟩ (hafter (by decide) hschedule)
  have howner : IsOther (indentation ++ ("'owner': " ++ (single c.owner ++ ","))) :=
    isOther_append (by decide) ⟨_, _, rfl, by decide⟩
      (hafter (by decide) (hcomma (oneLine_single _)))
  have hstart : IsOther (indentation ++
      ("'start_date': " ++ (Statement.dateCall settings.startDate ++ ","))) :=
    isOther_append (by decide) ⟨_, _, rfl, by decide⟩ (hafter (by decide) (hcomma hdate))
  have hopen : IsOther ("with DAG(" ++ (single c.dagId ++ ",")) :=
    isOther_append (by decide) ⟨_, _, rfl, by decide⟩ (hcomma (oneLine_single _))
  simp only [header, List.forall_mem_cons, Statement.bareLines, String.append_assoc]
  refine ⟨?_, ?_, ⟨henvironment, ?_⟩, ⟨hassign, ?_⟩, ?_, ⟨?_, howner, hstart, ?_⟩, ?_,
    ⟨hopen, ?_⟩, ?_⟩
  all_goals decide

/-- The lines after the imports import no function of the task module. -/
theorem isOther_of_mem_rest {settings : Settings} {c : Config} :
    ∀ line ∈ linesFrom "" (header settings c ++ (operators settings c ++ flow c)),
      IsOther line := by
  have hsplit : linesFrom "" (header settings c ++ (operators settings c ++ flow c)) =
      linesFrom "" (header settings c) ++
        linesFrom indentation (operators settings c ++ flow c) := by
    simp [header, linesFrom, Statement.indentAfter]
  have hindented {line : String} (h : OneLine line) : IsOther (indentation ++ line) :=
    isOther_append (by decide) ⟨_, _, rfl, by decide⟩ h
  have hheader : ∀ line ∈ linesFrom "" (header settings c), IsOther line := by
    refine forall_linesFrom (by decide) (fun s hs line hline => ?_) fun s hs line hline => ?_
    · rw [String.empty_append]
      exact isOther_of_mem_header s hs line hline
    · exact hindented (isOther_of_mem_header s hs line hline).1
  have hblock : ∀ line ∈ linesFrom indentation (operators settings c ++ flow c), IsOther line := by
    have hlines : ∀ s ∈ operators settings c ++ flow c, ∀ line ∈ s.bareLines,
        IsOther (indentation ++ line) := fun s hs line hline =>
      hindented (oneLine_operators_flow hs line hline)
    exact forall_linesFrom (by decide) hlines hlines
  intro line hline
  rw [hsplit] at hline
  rcases List.mem_append.mp hline with hline | hline
  · exact hheader line hline
  · exact hblock line hline

/-- The imports of every DAG file. -/
def plainImports : List String :=
  ["from airflow import DAG", "from airflow.operators.dummy import DummyOperator",
    "from airflow.operators.python import PythonOperator", "from datetime import datetime"]

/-- The functions of the tasks are imported in one line. -/
theorem taskImport_of_ne_nil {symbols : List String} (h : symbols ≠ []) :
    taskImport symbols = [.importLine (importFront ++ ", ".intercalate symbols)] := by
  rw [taskImport, if_neg (by simpa using h)]
  rfl

/-- The line that imports the functions stands behind the other imports. -/
theorem linesFrom_statements (settings : Settings) {c : Config} (h : c.symbols ≠ []) :
    linesFrom "" (statements settings c) =
      plainImports ++ (importFront ++ ", ".intercalate c.symbols) ::
        linesFrom "" (header settings c ++ (operators settings c ++ flow c)) := by
  rw [statements, List.append_assoc, List.append_assoc, imports, taskImport_of_ne_nil h]
  simp only [List.cons_append, List.nil_append, linesFrom, Statement.lines, Statement.bareLines,
    Statement.indentAfter, List.map_cons, List.map_nil, String.empty_append, plainImports]

/-- The other imports are none of functions of the task module. -/
theorem isOther_plainImports : ∀ line ∈ plainImports, IsOther line := by decide

/-- The lines of a DAG file are those of its statements, and there is nothing behind the last of
them. -/
theorem splitOn_file (settings : Settings) {c : Config} (h : c.symbols ≠ []) :
    (file settings c).toList.splitOn '\n' =
      (linesFrom "" (statements settings c)).map String.toList ++ [[]] := by
  have himport : OneLine (importFront ++ ", ".intercalate c.symbols) :=
    oneLine_append_iff.mpr ⟨by decide, oneLine_intercalate (by decide) fun _ => oneLine_symbol⟩
  rw [file, render, splitOn_textOfLines]
  rw [linesFrom_statements settings h, List.forall_mem_append, List.forall_mem_cons]
  exact ⟨fun line hline => (isOther_plainImports line hline).1, himport, fun line hline =>
    (isOther_of_mem_rest line hline).1⟩

/-- One line of a DAG file imports functions of the task module, and its names are the symbols of
the tasks. -/
theorem importedFunctions_file (settings : Settings) {c : Config} (h : c.symbols ≠ []) :
    importedFunctions (file settings c) = [c.symbols] := by
  have hnames : ∀ symbol ∈ c.symbols, IsImportable symbol := by
    intro symbol hsymbol
    obtain ⟨t, -, rfl⟩ := List.mem_map.mp hsymbol
    exact isImportable_symbol t
  have hread : functionsImported? (importFront ++ ", ".intercalate c.symbols).toList =
      some c.symbols := by
    rw [functionsImported?, String.toList_append, afterFront?_append, Option.map_some,
      importedNames_intercalate h hnames]
    simp [Function.comp_def]
  have hnone {lines : List String} (hother : ∀ line ∈ lines, IsOther line) :
      (lines.map String.toList).filterMap functionsImported? = [] := by
    rw [List.filterMap_eq_nil_iff]
    intro line hline
    obtain ⟨text, htext, rfl⟩ := List.mem_map.mp hline
    rw [functionsImported?, (hother text htext).2, Option.map_none]
  rw [importedFunctions, splitOn_file settings h, linesFrom_statements settings h,
    List.map_append, List.filterMap_append, List.filterMap_append, hnone isOther_plainImports,
    List.map_cons, List.filterMap_cons_some hread, hnone isOther_of_mem_rest]
  rfl

/-! ## Operators and dependencies -/

/-- The operators among some statements. -/
def operatorsOf (ss : List Statement) : List Operator :=
  ss.filterMap fun
    | .operator op => some op
    | _ => none

/-- The dependencies among some statements. -/
def edgesOf (ss : List Statement) : List Edge :=
  ss.filterMap fun
    | .edge e => some e
    | _ => none

/-- The names in the text of an operator: the variable that it is assigned to, the identifier of its
task and the function that it calls. -/
structure OperatorNames where
  target : String
  taskId : String
  function : String
  deriving DecidableEq, Repr

/-- The text between two others, if it is put between them. -/
def between? (front back text : String) : Option String :=
  ((afterFront? front.toList text.toList).bind (beforeEnd? back.toList)).map String.ofList

/-- The names in the lines of an operator. -/
def operatorNames? : List String → Option OperatorNames
  | opening :: task :: function :: _ => do
    let target ← between? "" " = PythonOperator(" opening
    let taskId ← between? (indentation ++ "task_id='") "'," task
    let function ← between? (indentation ++ "python_callable=") "," function
    return ⟨target, taskId, function⟩
  | _ => none

/-- What stands between two known texts is found there. -/
theorem between?_append (front middle back : String) :
    between? front back (front ++ middle ++ back) = some middle := by
  rw [between?, String.toList_append, String.toList_append, List.append_assoc, afterFront?_append,
    Option.bind_some, beforeEnd?_append, Option.map_some, String.ofList_toList]

/-- A symbol stands between quotes as it is. -/
theorem single_symbol (t : Task) : single t.symbol = "'" ++ t.symbol ++ "'" := by
  have hplain : ∀ c ∈ t.symbol.toList, literalChar '\'' c = [c] := by
    intro c hc
    have hallowed := Symbol.isAllowed_of_mem_ofName hc
    have hne {d : Char} (hd : Symbol.isAllowed d = false) : c ≠ d := by
      rintro rfl
      rw [hallowed] at hd
      cases hd
    rw [literalChar, if_neg (hne (by decide)), if_neg (hne (by decide)), if_neg (hne (by decide))]
  rw [← String.toList_inj]
  simp only [single, literal, literalChars, String.toList_ofList, String.toList_append]
  rw [List.flatMap_congr hplain, List.flatMap_singleton']
  rfl

/-- The three names in the lines of an operator are the symbol of its task. -/
theorem operatorNames?_ofTask (t : Task) (pools : List String) (defaultPool : String) :
    operatorNames? (Statement.operatorLines (.ofTask t pools defaultPool)) =
      some ⟨t.symbol, t.symbol, t.symbol⟩ := by
  have hopening := between?_append "" t.symbol " = PythonOperator("
  have htask := between?_append (indentation ++ "task_id='") t.symbol "',"
  have hfunction := between?_append (indentation ++ "python_callable=") t.symbol ","
  rw [String.empty_append] at hopening
  have hquoted : indentation ++ "task_id=" ++ single t.symbol ++ "," =
      indentation ++ "task_id='" ++ t.symbol ++ "'," := by
    rw [single_symbol, ← String.toList_inj]
    simp
  simp only [Statement.operatorLines, Operator.ofTask, operatorNames?, hopening, hquoted, htask,
    hfunction]
  rfl

theorem operatorsOf_append (ss ss' : List Statement) :
    operatorsOf (ss ++ ss') = operatorsOf ss ++ operatorsOf ss' :=
  List.filterMap_append

theorem edgesOf_append (ss ss' : List Statement) :
    edgesOf (ss ++ ss') = edgesOf ss ++ edgesOf ss' :=
  List.filterMap_append

/-- The operators of a DAG file are those of the tasks, in their order. -/
theorem operatorsOf_statements (settings : Settings) (c : Config) :
    operatorsOf (statements settings c) =
      c.tasks.map fun t => .ofTask t c.pools settings.defaultPool := by
  have himports : operatorsOf (imports c) = [] := by
    unfold imports taskImport
    split_ifs <;> rfl
  have hflow : operatorsOf (flow c) = [] := by
    rw [operatorsOf, flow, List.filterMap_cons_none rfl, List.filterMap_map]
    exact List.filterMap_eq_nil_iff.mpr fun _ _ => rfl
  have hoperators : operatorsOf (operators settings c) =
      c.tasks.map fun t => .ofTask t c.pools settings.defaultPool := by
    rw [operatorsOf, operators, List.filterMap_flatMap, List.map_eq_flatMap]
    rfl
  rw [statements, operatorsOf_append, operatorsOf_append, operatorsOf_append, himports, hflow,
    hoperators, List.append_nil]
  rfl

/-- The dependencies of a DAG file are those that link the steps. -/
theorem edgesOf_statements (settings : Settings) (c : Config) :
    edgesOf (statements settings c) = link (c.pipeline.map Step.symbols) := by
  have himports : edgesOf (imports c) = [] := by
    unfold imports taskImport
    split_ifs <;> rfl
  have hoperators : edgesOf (operators settings c) = [] := by
    rw [edgesOf, operators, List.filterMap_flatMap]
    exact List.flatMap_eq_nil_iff.mpr fun _ _ => rfl
  have hflow : edgesOf (flow c) = link (c.pipeline.map Step.symbols) := by
    rw [edgesOf, flow, List.filterMap_cons_none rfl, List.filterMap_map]
    exact List.filterMap_some
  rw [statements, edgesOf_append, edgesOf_append, edgesOf_append, himports, hoperators, hflow,
    List.append_nil]
  rfl

/-- What stands on the two sides of the dependencies: the source and all steps, and all steps and
the end. -/
theorem flatMap_names_linkFrom (source : Node) (steps : List (List String)) :
    (linkFrom source steps).flatMap (fun e => e.source.names) = source.names ++ steps.flatten ∧
      (linkFrom source steps).flatMap (fun e => e.target.names) =
        steps.flatten ++ [endName] := by
  induction steps generalizing source with
  | nil => simp [linkFrom, Node.names]
  | cons step steps ih =>
      cases hnode : Node.ofSymbols? step with
      | none =>
          -- a step without tasks is left out
          have hstep : step = [] := by
            cases step with
            | nil => rfl
            | cons symbol symbols =>
                obtain ⟨node, hsome⟩ := Node.ofSymbols?_isSome (List.cons_ne_nil symbol symbols)
                rw [hnode] at hsome
                cases hsome
          rw [linkFrom, hnode, hstep, List.flatten_cons, List.nil_append]
          exact ih source
      | some target =>
          obtain ⟨hsources, htargets⟩ := ih target
          rw [linkFrom, hnode, List.flatMap_cons, List.flatMap_cons, hsources, htargets,
            Node.names_of_ofSymbols? hnode, List.flatten_cons, List.append_assoc]
          exact ⟨rfl, rfl⟩

/-! ## The five lists -/

/-- In the texts of a validated project, the heads of the functions in the task module, the import
of the functions, the variables, identifiers and functions of the operators, the targets of the
dependencies but for the end and their sources but for the start are one list: the symbols of the
tasks in the order of the pipeline, each once. -/
theorem symbols_agree_of_validate (settings : Settings) {p : Payload} {c : Config}
    (h : p.validate = .ok c) :
    c.symbols.Nodup ∧ c.symbols = (c.pipeline.map Step.symbols).flatten ∧
      TaskModule.file c = TaskModule.importBlock (TaskModule.importLines c) ++
        "\n\n".intercalate (c.tasks.map TaskModule.callable) ∧
      (c.tasks.map TaskModule.callable).map TaskModule.functionName? = c.symbols.map some ∧
      importedFunctions (file settings c) = [c.symbols] ∧
      (operatorsOf (statements settings c)).map
          (fun op => operatorNames? (Statement.operatorLines op)) =
        c.symbols.map (fun symbol => some ⟨symbol, symbol, symbol⟩) ∧
      (edgesOf (statements settings c)).flatMap (fun e => e.target.names) =
        c.symbols ++ [endName] ∧
      (edgesOf (statements settings c)).flatMap (fun e => e.source.names) =
        startName :: c.symbols := by
  have hwell := Payload.wellFormed_of_validate h
  have hsymbols : c.symbols ≠ [] := by
    obtain ⟨s, hs⟩ := List.exists_mem_of_ne_nil c.pipeline hwell.pipeline_nonempty
    obtain ⟨t, ht⟩ := List.exists_mem_of_ne_nil s.tasks (hwell.step_nonempty s hs)
    exact List.ne_nil_of_mem (List.mem_map_of_mem (Config.mem_tasks hs ht))
  obtain ⟨hsources, htargets⟩ :=
    flatMap_names_linkFrom (.single startName) (c.pipeline.map Step.symbols)
  rw [edgesOf_statements, operatorsOf_statements, link, htargets, hsources,
    ← c.symbols_eq_flatten]
  refine ⟨hwell.symbols_distinct, rfl, rfl, ?_, importedFunctions_file settings hsymbols, ?_, rfl,
    rfl⟩
  · rw [List.map_map, Config.symbols, List.map_map]
    exact List.map_congr_left fun t _ => TaskModule.functionName?_callable t
  · rw [List.map_map, Config.symbols, List.map_map]
    exact List.map_congr_left fun t _ => operatorNames?_ofTask t c.pools settings.defaultPool

/-- The functions that three tasks import are those that the dependencies name. -/
theorem symbols_agree_threeTasks :
    threeTasks.validate = .ok threeTasks.toConfig ∧
      importedFunctions (file {} threeTasks.toConfig) = [["extract", "load_a", "load_b_"]] ∧
        (edgesOf (statements {} threeTasks.toConfig)).flatMap (fun e => e.target.names) =
          ["extract", "load_a", "load_b_", "end"] := by
  have h : threeTasks.validate = .ok threeTasks.toConfig := by rfl
  obtain ⟨-, -, -, -, himport, -, htargets, -⟩ := symbols_agree_of_validate {} h
  exact ⟨h, himport, htargets⟩

end Dag

end DagScaffold
