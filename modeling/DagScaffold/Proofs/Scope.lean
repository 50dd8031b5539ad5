import Mathlib
import DagScaffold.Dag.File
import DagScaffold.Proofs.Fronts
import DagScaffold.Proofs.TaskOrder

/-!
# Names of a DAG file

A statement of a DAG file binds names and uses names. In the file of a validated project every name
is bound before it is used; only the symbols of the tasks are bound twice, by the import of their
functions and by their operators, and each operator still calls the function that was imported for
its task.

* `Statement.bindings`, `Statement.uses` : what a statement binds and uses;
* `meaning` : what a name stands for after some statements;
* `wellScoped_statements_of_validate` : the names of the DAG file of a validated project.
-/

namespace DagScaffold.Dag

/-! ## Imports -/

/-- The names after the word of an import, which commas separate. -/
def importedNames (cs : List Char) : List (List Char) :=
  (cs.splitOn ',').map (List.dropWhile (· = ' '))

/-- The module and the names of an import line. -/
def importParts? (line : List Char) : Option (List Char × List (List Char)) :=
  (Manifest.afterFront? "from ".toList line).bind fun rest =>
    (Manifest.splitAtFirst? " import ".toList rest).map fun parts =>
      (parts.1, importedNames parts.2)

/-! ## What statements bind and use -/

/-- What a name of a DAG file stands for. -/
inductive Binding where
  | imported (module name : String)
  | assigned (expression : String)
  | defaultArgs
  | dag
  | sentinel
  | operator (op : Operator)
  deriving DecidableEq, Repr

namespace Statement

/-- The names that a statement binds, in its order, with what they stand for from there on. -/
def bindings : Statement → List (String × Binding)
  | importLine line =>
    match importParts? line.toList with
    | some (m, names) => names.map fun n => (.ofList n, .imported (.ofList m) (.ofList n))
    | none => []
  | assign target expression => [(target, .assigned expression)]
  | defaultArgs _ _ => [("default_args", .defaultArgs)]
  | openDag _ _ => [("dag", .dag)]
  | sentinel name => [(name, .sentinel)]
  | operator op => [(op.symbol, .operator op)]
  | blank => []
  | comment _ => []
  | edge _ => []

/-- The names in an expression that is assigned: a text and the word for nothing have none, and any
other expression is a name. -/
def expressionNames (expression : String) : List String :=
  if expression = "None" ∨ expression.toList.head? = some '"' then [] else [expression]

/-- The names that a statement uses. -/
def uses : Statement → List String
  | assign _ expression => expressionNames expression
  | defaultArgs _ _ => ["datetime"]
  | openDag _ scheduleVariable => ["DAG", "default_args", scheduleVariable]
  | sentinel _ => ["DummyOperator"]
  | operator op => ["PythonOperator", op.symbol, "dag"]
  | edge e => e.source.names ++ e.target.names
  | importLine _ => []
  | blank => []
  | comment _ => []

end Statement

/-- The bindings of some statements in their order. -/
def bindings (ss : List Statement) : List (String × Binding) :=
  ss.flatMap Statement.bindings

/-- The names that some statements bind. -/
def boundNames (ss : List Statement) : List String :=
  (bindings ss).map Prod.fst

/-- What a name stands for after some statements: its latest binding. -/
def meaning (ss : List Statement) (name : String) : Option Binding :=
  (((bindings ss).filter (·.1 = name)).getLast?).map Prod.snd

/-- Whether every name that one of some statements uses is bound by a statement before it or is
among the names `bound`. -/
def WellScoped (bound : List String) : List Statement → Prop
  | [] => True
  | s :: ss => (∀ name ∈ s.uses, name ∈ bound) ∧ WellScoped (bound ++ boundNames [s]) ss

/-- Statements bind what those before and those after bind. -/
theorem bindings_append (ss ss' : List Statement) :
    bindings (ss ++ ss') = bindings ss ++ bindings ss' :=
  List.flatMap_append

theorem boundNames_append (ss ss' : List Statement) :
    boundNames (ss ++ ss') = boundNames ss ++ boundNames ss' := by
  rw [boundNames, bindings_append, List.map_append]
  rfl

/-- Statements are in scope when the later ones are with the names that the earlier ones bind. -/
theorem wellScoped_append_iff (bound : List String) (ss ss' : List Statement) :
    WellScoped bound (ss ++ ss') ↔ WellScoped bound ss ∧
      WellScoped (bound ++ boundNames ss) ss' := by
  induction ss generalizing bound with
  | nil => simp [WellScoped, boundNames, bindings]
  | cons s ss ih =>
      have hsplit : boundNames (s :: ss) = boundNames [s] ++ boundNames ss :=
        boundNames_append [s] ss
      rw [List.cons_append, WellScoped, WellScoped, ih, hsplit, List.append_assoc, and_assoc]

/-- Statements that use names of an outer scope only are well scoped. -/
theorem wellScoped_of_forall_uses {bound : List String} {ss : List Statement}
    (h : ∀ s ∈ ss, ∀ name ∈ s.uses, name ∈ bound) : WellScoped bound ss := by
  induction ss generalizing bound with
  | nil => trivial
  | cons s ss ih =>
      obtain ⟨hs, hss⟩ := List.forall_mem_cons.mp h
      refine ⟨hs, ih fun s' hs' name hname => ?_⟩
      exact List.mem_append_left _ (hss s' hs' name hname)

/-- A name that a statement uses is bound by one before it. -/
theorem mem_boundNames_of_wellScoped {before after : List Statement} {s : Statement}
    (h : WellScoped [] (before ++ s :: after)) {name : String} (hname : name ∈ s.uses) :
    name ∈ boundNames before := by
  have hrest := ((wellScoped_append_iff [] before (s :: after)).mp h).2
  rw [List.nil_append] at hrest
  exact hrest.1 name hname

/-! ## Import lines are read back -/

/-- A space in front of a list of names is left out. -/
theorem importedNames_space (cs : List Char) : importedNames (' ' :: cs) = importedNames cs := by
  rw [importedNames, importedNames, List.splitOn_cons_eq_if_modifyHead]
  cases hsplit : cs.splitOn ',' with
  | nil => exact absurd hsplit (List.splitOn_ne_nil ',' cs)
  | cons head rest => simp

/-- A name of an import: without commas, and without a space in front. -/
def IsImportable (name : String) : Prop :=
  ',' ∉ name.toList ∧ ' ' ∉ name.toList

/-- A name of an import has no space in front to leave out. -/
theorem importedNames_toList {name : String} (h : IsImportable name) :
    (name.toList.dropWhile (· = ' ')) = name.toList := by
  cases hchars : name.toList with
  | nil => rfl
  | cons c cs =>
      have hc : c ≠ ' ' := by
        rintro rfl
        exact h.2 (hchars ▸ List.mem_cons_self)
      rw [List.dropWhile_cons_of_neg (by simpa using hc)]

/-- Names that were joined by commas are read back. -/
theorem importedNames_intercalate {names : List String} (hnonempty : names ≠ [])
    (h : ∀ name ∈ names, IsImportable name) :
    importedNames (", ".intercalate names).toList = names.map String.toList := by
  induction names with
  | nil => exact absurd rfl hnonempty
  | cons name names ih =>
      obtain ⟨hname, hnames⟩ := List.forall_mem_cons.mp h
      cases names with
      | nil =>
          rw [String.intercalate_singleton, importedNames, List.splitOn_eq_singleton hname.1]
          simp only [List.map_cons, List.map_nil, importedNames_toList hname]
      | cons next names =>
          have hchars : (", ".intercalate (name :: next :: names)).toList =
              name.toList ++ ',' :: ' ' :: (", ".intercalate (next :: names)).toList := by
            rw [String.intercalate_cons_cons]
            simp
          have hrest := ih (by simp) hnames
          rw [← importedNames_space] at hrest
          rw [hchars, importedNames, List.splitOn_append_cons_self_of_not_mem hname.1,
            List.map_cons, importedNames_toList hname, List.map_cons, ← hrest]
          rfl

/-- A symbol can stand in an import. -/
theorem isImportable_symbol (t : Task) : IsImportable t.symbol := by
  refine ⟨fun h => ?_, fun h => ?_⟩
  · exact absurd (Symbol.isAllowed_of_mem_ofName h) (by decide)
  · exact absurd (Symbol.isAllowed_of_mem_ofName h) (by decide)

/-- An import line binds its names to what the module has under them. -/
theorem bindings_importLine {m : String} {names : List String} (hm : ' ' ∉ m.toList)
    (hnonempty : names ≠ []) (h : ∀ name ∈ names, IsImportable name) :
    Statement.bindings (.importLine ("from " ++ m ++ " import " ++ ", ".intercalate names)) =
      names.map fun name => (name, .imported m name) := by
  have hparts : importParts? ("from " ++ m ++ " import " ++ ", ".intercalate names).toList =
      some (m.toList, names.map String.toList) := by
    rw [importParts?, String.toList_append, String.toList_append, String.toList_append,
      List.append_assoc, List.append_assoc, Manifest.afterFront?_append, Option.bind_some]
    have hmark : " import ".toList = ' ' :: "import ".toList := rfl
    rw [hmark, Manifest.splitAtFirst?_append _ hm, Option.map_some,
      importedNames_intercalate hnonempty h]
  rw [Statement.bindings, hparts]
  simp [Function.comp_def]

/-! ## The parts of a DAG file -/

/-- The imports of a DAG file bind four names that every file has, and the symbols of the tasks. -/
theorem bindings_imports (config : Config) :
    bindings (imports config) =
      [("DAG", .imported "airflow" "DAG"),
        ("DummyOperator", .imported "airflow.operators.dummy" "DummyOperator"),
        ("PythonOperator", .imported "airflow.operators.python" "PythonOperator"),
        ("datetime", .imported "datetime" "datetime")] ++
        config.symbols.map fun symbol => (symbol, .imported taskModuleName symbol) := by
  have htasks : bindings (taskImport config.symbols) =
      config.symbols.map fun symbol => (symbol, .imported taskModuleName symbol) := by
    unfold taskImport
    cases hsymbols : config.symbols with
    | nil => rfl
    | cons symbol symbols =>
        rw [← hsymbols, hsymbols, List.isEmpty_cons, if_neg Bool.false_ne_true, bindings,
          List.flatMap_singleton]
        refine bindings_importLine (by decide) (by simp) fun name hname => ?_
        rw [← hsymbols] at hname
        obtain ⟨t, -, rfl⟩ := List.mem_map.mp hname
        exact isImportable_symbol t
  rw [imports, bindings_append, htasks]
  rfl

/-- The statements before the operators bind six names that every file has. -/
theorem bindings_header (settings : Settings) (config : Config) :
    bindings (header settings config) =
      [("custom_env_name", .assigned (double (environmentName settings config))),
        (scheduleVariable, .assigned (schedule config)), ("default_args", .defaultArgs),
        ("dag", .dag), (startName, .sentinel), (endName, .sentinel)] :=
  rfl

/-- The operators bind the symbols of the tasks. -/
theorem bindings_operators (settings : Settings) (config : Config) :
    bindings (operators settings config) = config.tasks.map fun t =>
      (t.symbol, .operator (.ofTask t config.pools settings.defaultPool)) := by
  rw [bindings, operators, List.flatMap_assoc, List.map_eq_flatMap]
  rfl

/-- The dependencies bind nothing. -/
theorem bindings_flow (config : Config) : bindings (flow config) = [] := by
  rw [bindings, flow, List.flatMap_cons, List.flatMap_map]
  exact List.flatMap_eq_nil_iff.mpr fun _ _ => rfl

/-- The names that the imports bind besides the symbols of the tasks. -/
def importedByAll : List String :=
  ["DAG", "DummyOperator", "PythonOperator", "datetime"]

/-- The names that the configuration and the opening of the DAG bind. -/
def configured : List String :=
  ["custom_env_name", scheduleVariable, "default_args", "dag", startName, endName]

theorem boundNames_imports (config : Config) :
    boundNames (imports config) = importedByAll ++ config.symbols := by
  rw [boundNames, bindings_imports, List.map_append, List.map_map]
  simp [importedByAll, Function.comp_def]

theorem boundNames_header (settings : Settings) (config : Config) :
    boundNames (header settings config) = configured :=
  rfl

theorem boundNames_operators (settings : Settings) (config : Config) :
    boundNames (operators settings config) = config.symbols := by
  rw [boundNames, bindings_operators, List.map_map]
  rfl

/-- A DAG file binds the symbols of its tasks twice, once as functions and once as operators. -/
theorem boundNames_statements (settings : Settings) (config : Config) :
    boundNames (statements settings config) =
      importedByAll ++ config.symbols ++ configured ++ config.symbols := by
  rw [statements, boundNames_append, boundNames_append, boundNames_append, boundNames_imports,
    boundNames_header, boundNames_operators, boundNames, bindings_flow, List.map_nil,
    List.append_nil]

/-! ## Uses -/

/-- A literal uses no name. -/
theorem expressionNames_double (s : String) : Statement.expressionNames (double s) = [] := by
  have hquote : (double s).toList.head? = some '"' := by
    simp [double, literal, literalChars]
  rw [Statement.expressionNames, if_pos (Or.inr hquote)]

/-- The schedule uses no name. -/
theorem expressionNames_schedule (config : Config) :
    Statement.expressionNames (schedule config) = [] := by
  unfold schedule
  split_ifs
  · rfl
  · exact expressionNames_double config.cron

/-- The imports use no name. -/
theorem uses_of_mem_imports {config : Config} {s : Statement} (h : s ∈ imports config) :
    s.uses = [] := by
  simp only [imports, taskImport, List.mem_append, List.mem_cons, List.not_mem_nil, or_false] at h
  rcases h with (rfl | rfl | rfl | rfl) | h
  · rfl
  · rfl
  · rfl
  · rfl
  · split_ifs at h
    · exact absurd h List.not_mem_nil
    · rw [List.mem_singleton.mp h]
      rfl

/-- The statements before the operators use names that are bound by then. -/
theorem wellScoped_header (settings : Settings) (config : Config) :
    WellScoped (importedByAll ++ config.symbols) (header settings config) := by
  simp [header, WellScoped, Statement.uses, expressionNames_double, expressionNames_schedule,
    importedByAll, boundNames, bindings, Statement.bindings]

/-- The nodes of an edge are the start, the end or tasks of the steps. -/
theorem mem_of_mem_linkFrom {source : Node} {steps : List (List String)} {e : Edge}
    (h : e ∈ linkFrom source steps) {name : String}
    (hname : name ∈ e.source.names ++ e.target.names) :
    name ∈ source.names ∨ name ∈ steps.flatten ∨ name = endName := by
  induction steps generalizing source with
  | nil =>
      rw [linkFrom, List.mem_singleton] at h
      subst h
      rcases List.mem_append.mp hname with hname | hname
      · exact Or.inl hname
      · exact Or.inr (Or.inr (List.mem_singleton.mp hname))
  | cons step steps ih =>
      rw [List.flatten_cons, List.mem_append]
      cases hnode : Node.ofSymbols? step with
      | none =>
          -- a step without tasks is left out, and the source stays
          rw [linkFrom, hnode] at h
          rcases ih h with hsource | hsteps | hend
          · exact Or.inl hsource
          · exact Or.inr (Or.inl (Or.inr hsteps))
          · exact Or.inr (Or.inr hend)
      | some target =>
          have htarget := Node.names_of_ofSymbols? hnode
          rw [linkFrom, hnode] at h
          rcases List.mem_cons.mp h with rfl | h
          · rw [htarget] at hname
            rcases List.mem_append.mp hname with hname | hname
            · exact Or.inl hname
            · exact Or.inr (Or.inl (Or.inl hname))
          · rcases ih h with hsource | hsteps | hend
            · rw [htarget] at hsource
              exact Or.inr (Or.inl (Or.inl hsource))
            · exact Or.inr (Or.inl (Or.inr hsteps))
            · exact Or.inr (Or.inr hend)

/-- Every name in the DAG file of a project is bound before it is used. -/
theorem wellScoped_statements (settings : Settings) (config : Config) :
    WellScoped [] (statements settings config) := by
  simp only [statements, wellScoped_append_iff, boundNames_append, boundNames_imports,
    boundNames_header, boundNames_operators, List.nil_append]
  refine ⟨⟨⟨?_, wellScoped_header settings config⟩, ?_⟩, ?_⟩
  · refine wellScoped_of_forall_uses fun s hs name hname => ?_
    rw [uses_of_mem_imports hs] at hname
    exact hname
  · refine wellScoped_of_forall_uses fun s hs name hname => ?_
    obtain ⟨t, ht, hs⟩ := List.mem_flatMap.mp hs
    have hsymbol : t.symbol ∈ config.symbols := List.mem_map_of_mem ht
    simp only [List.mem_cons, List.not_mem_nil, or_false] at hs
    rcases hs with rfl | rfl
    · simp only [Statement.uses, List.mem_cons, List.not_mem_nil, or_false] at hname
      rcases hname with rfl | rfl | rfl
      · simp [importedByAll]
      · simp only [List.mem_append]
        exact Or.inl (Or.inr hsymbol)
      · simp [configured]
    · exact absurd hname List.not_mem_nil
  · refine wellScoped_of_forall_uses fun s hs name hname => ?_
    rcases List.mem_cons.mp hs with rfl | hs
    · exact absurd hname List.not_mem_nil
    · obtain ⟨e, he, rfl⟩ := List.mem_map.mp hs
      have hnode := mem_of_mem_linkFrom he hname
      rw [← config.symbols_eq_flatten] at hnode
      rcases hnode with hstart | hsymbol | rfl
      · rw [List.mem_singleton.mp hstart]
        simp [configured]
      · exact List.mem_append_right _ hsymbol
      · simp [configured]

/-! ## Bindings of a validated project -/

/-- The names that every DAG file binds are different. -/
theorem importedByAll_append_configured_nodup : (importedByAll ++ configured).Nodup := by
  decide

/-- The names that every DAG file imports are reserved. -/
theorem mem_reserved_of_mem_importedByAll {name : String} (h : name ∈ importedByAll) :
    name ∈ Symbol.reserved := by
  revert name
  decide

/-- The names that every DAG file configures are reserved. -/
theorem mem_reserved_of_mem_configured {name : String} (h : name ∈ configured) :
    name ∈ Symbol.reserved := by
  revert name
  decide

/-- A name that is no symbol of a task is bound once at most. -/
theorem count_boundNames_le_one (settings : Settings) (config : Config) {name : String}
    (h : name ∉ config.symbols) : (boundNames (statements settings config)).count name ≤ 1 := by
  rw [boundNames_statements, List.count_append, List.count_append, List.count_append,
    List.count_eq_zero_of_not_mem h, Nat.add_zero, Nat.add_zero, ← List.count_append]
  exact List.nodup_iff_count_le_one.mp importedByAll_append_configured_nodup name

/-- In a project with distinct symbols a task is the only one with its symbol. -/
theorem filter_tasks_eq_singleton {config : Config} (h : config.WellFormed) {t : Task}
    (ht : t ∈ config.tasks) : config.tasks.filter (·.symbol = t.symbol) = [t] := by
  have hdistinct : config.tasks.Nodup := List.Nodup.of_map _ h.symbols_distinct
  have hsame : config.tasks.filter (·.symbol = t.symbol) = config.tasks.filter (· == t) := by
    refine List.filter_congr fun t' ht' => ?_
    rw [beq_eq_decide, decide_eq_decide]
    refine ⟨fun hsymbol => ?_, fun heq => congrArg Task.symbol heq⟩
    exact List.inj_on_of_nodup_map h.symbols_distinct ht' ht hsymbol
  rw [hsame, List.filter_beq, List.count_eq_one_of_mem hdistinct ht]
  rfl

/-- A task's symbol is bound by the import of its function and then by its operator. -/
theorem filter_bindings_symbol (settings : Settings) {config : Config} (h : config.WellFormed)
    {t : Task} (ht : t ∈ config.tasks) :
    (bindings (statements settings config)).filter (·.1 = t.symbol) =
      [(t.symbol, .imported taskModuleName t.symbol),
        (t.symbol, .operator (.ofTask t config.pools settings.defaultPool))] := by
  have hmem : t.symbol ∈ config.symbols := List.mem_map_of_mem ht
  have hreserved := h.not_mem_reserved hmem
  -- the names that every file binds are reserved, so they hold no symbol
  have hfixed : ∀ {bs : List (String × Binding)},
      (∀ name ∈ bs.map Prod.fst, name ∈ Symbol.reserved) → bs.filter (·.1 = t.symbol) = [] := by
    intro bs hbs
    refine List.filter_eq_nil_iff.mpr fun b hb => ?_
    have hne : b.1 ≠ t.symbol :=
      ne_of_mem_of_not_mem (hbs b.1 (List.mem_map_of_mem hb)) hreserved
    simpa using hne
  have himports : (config.symbols.map fun symbol =>
      ((symbol, .imported taskModuleName symbol) : String × Binding)).filter (·.1 = t.symbol) =
        [(t.symbol, .imported taskModuleName t.symbol)] := by
    rw [Config.symbols, List.map_map, List.filter_map]
    have hfilter := filter_tasks_eq_singleton h ht
    simp only [Function.comp_def] at hfilter ⊢
    rw [hfilter]
    rfl
  have hoperators : (config.tasks.map fun t' =>
      ((t'.symbol, .operator (.ofTask t' config.pools settings.defaultPool)) :
        String × Binding)).filter (·.1 = t.symbol) =
        [(t.symbol, .operator (.ofTask t config.pools settings.defaultPool))] := by
    rw [List.filter_map]
    have hfilter := filter_tasks_eq_singleton h ht
    simp only [Function.comp_def] at hfilter ⊢
    rw [hfilter]
    rfl
  rw [statements, bindings_append, bindings_append, bindings_append, bindings_imports,
    bindings_header, bindings_operators, bindings_flow, List.append_nil, List.filter_append,
    List.filter_append, List.filter_append, himports, hoperators, hfixed, hfixed]
  · rfl
  · exact fun _ => mem_reserved_of_mem_configured
  · exact fun _ => mem_reserved_of_mem_importedByAll

/-- Every operator of a DAG file is that of a task. -/
theorem exists_of_operator_mem_statements {settings : Settings} {config : Config} {op : Operator}
    (h : Statement.operator op ∈ statements settings config) :
    ∃ t ∈ config.tasks, op = .ofTask t config.pools settings.defaultPool := by
  simp only [statements, List.mem_append] at h
  rcases h with ((h | h) | h) | h
  · have huses := uses_of_mem_imports h
    simp [Statement.uses] at huses
  · simp [header] at h
  · obtain ⟨t, ht, hs⟩ := List.mem_flatMap.mp h
    refine ⟨t, ht, ?_⟩
    simpa using hs
  · simp [flow] at h

/-- Where the operator of a task stands, its symbol still means the imported function. -/
theorem meaning_before_operator (settings : Settings) {config : Config} (h : config.WellFormed)
    {before after : List Statement} {op : Operator}
    (hsplit : statements settings config = before ++ .operator op :: after) :
    ∃ t ∈ config.tasks, op = .ofTask t config.pools settings.defaultPool ∧
      meaning before t.symbol = some (.imported taskModuleName t.symbol) := by
  have hop : Statement.operator op ∈ statements settings config := by
    rw [hsplit]
    exact List.mem_append_right _ List.mem_cons_self
  obtain ⟨t, ht, rfl⟩ := exists_of_operator_mem_statements hop
  have hboth := filter_bindings_symbol settings h ht
  have hsecond : bindings (.operator (.ofTask t config.pools settings.defaultPool) :: after) =
      (t.symbol, .operator (.ofTask t config.pools settings.defaultPool)) :: bindings after :=
    rfl
  rw [hsplit, bindings_append, List.filter_append, hsecond,
    List.filter_cons_of_pos (by simp)] at hboth
  refine ⟨t, ht, rfl, ?_⟩
  -- two bindings of the symbol are known, and the one of the operator is not the first
  cases hbefore : (bindings before).filter (·.1 = t.symbol) with
  | nil =>
      rw [hbefore] at hboth
      simp at hboth
  | cons b bs =>
      rw [hbefore] at hboth
      cases bs with
      | nil =>
          simp only [List.cons_append, List.nil_append, List.cons.injEq] at hboth
          rw [meaning, hbefore, hboth.1]
          rfl
      | cons b' bs =>
          have hlength := congrArg List.length hboth
          simp at hlength

/-- In the DAG file of a validated project every name is bound before it is used, no name but the
symbols of the tasks is bound twice, and each of these is bound exactly twice, by the import of its
function and then by its operator; so what an operator calls is the imported function of its own
task. -/
theorem wellScoped_statements_of_validate (settings : Settings) {p : Payload} {c : Config}
    (h : p.validate = .ok c) :
    (∀ before s after, statements settings c = before ++ s :: after →
      ∀ name ∈ s.uses, name ∈ boundNames before) ∧
    (∀ name, name ∉ c.symbols → (boundNames (statements settings c)).count name ≤ 1) ∧
    (∀ t ∈ c.tasks, (bindings (statements settings c)).filter (·.1 = t.symbol) =
      [(t.symbol, .imported taskModuleName t.symbol),
        (t.symbol, .operator (.ofTask t c.pools settings.defaultPool))]) ∧
    ∀ before op after, statements settings c = before ++ .operator op :: after →
      ∃ t ∈ c.tasks, op = .ofTask t c.pools settings.defaultPool ∧
        meaning before t.symbol = some (.imported taskModuleName t.symbol) := by
  have hwell := Payload.wellFormed_of_validate h
  refine ⟨?_, ?_, ?_, ?_⟩
  · intro before s after hsplit name hname
    have hscoped := wellScoped_statements settings c
    rw [hsplit] at hscoped
    exact mem_boundNames_of_wellScoped hscoped hname
  · intro name hname
    exact count_boundNames_le_one settings c hname
  · intro t ht
    exact filter_bindings_symbol settings hwell ht
  · intro before op after hsplit
    exact meaning_before_operator settings hwell hsplit

/-- The symbol of one of three tasks is bound to its function and then to its operator. -/
theorem wellScoped_statements_threeTasks :
    threeTasks.validate = .ok threeTasks.toConfig ∧
      (boundNames (statements {} threeTasks.toConfig)).count "dag" ≤ 1 ∧
        (bindings (statements {} threeTasks.toConfig)).filter (·.1 = "load_b_") =
          [("load_b_", .imported "src.treatment" "load_b_"),
            ("load_b_", .operator ⟨"load_b_", 1, "default_pool", 1⟩)] := by
  have h : threeTasks.validate = .ok threeTasks.toConfig := by rfl
  obtain ⟨-, honce, htwice, -⟩ := wellScoped_statements_of_validate {} h
  refine ⟨h, honce "dag" (by decide), ?_⟩
  exact htwice _ (List.mem_cons_of_mem _ (List.mem_cons_of_mem _ List.mem_cons_self))

end DagScaffold.Dag
