import Mathlib
import DagScaffold.Proofs.Dependencies
import DagScaffold.Proofs.Preservation

/-!
# The outline of a DAG file

The blocks of a DAG file are told by the spaces that open its lines. They follow from the kinds of
its statements alone, and these from the number of steps and tasks, so no text of a project has a
say in them.

* `leadingSpaces`, `outline` : the spaces that open the lines of a text;
* `Kind`, `Kind.depths` : the kinds of statements and the spaces that open their lines;
* `Statement.Legible` : statements whose names are identifiers;
* `outline_file` : the outline of a DAG file from the kinds of its statements;
* `outline_eq_of_validate` : it is the same for projects of one shape, and what belongs to its
  block.
-/

namespace DagScaffold.Dag

open DagScaffold.Symbol (IsIdentifier)

/-! ## Leading spaces -/

/-- The number of spaces that open a line. -/
def leadingSpaces (line : List Char) : Nat :=
  (line.takeWhile (· = ' ')).length

/-- The number of spaces that open each line of a text. -/
def outline (text : String) : List Nat :=
  (text.toList.splitOn '\n').map leadingSpaces

/-- There are no spaces before another character. -/
theorem leadingSpaces_cons {c : Char} (h : c ≠ ' ') (cs : List Char) :
    leadingSpaces (c :: cs) = 0 := by
  rw [leadingSpaces, List.takeWhile_cons_of_neg (by simpa using h), List.length_nil]

/-- A line has no leading spaces when it opens with another character. -/
theorem leadingSpaces_front {front : String} (hopen : ∃ c cs, front.toList = c :: cs ∧ c ≠ ' ')
    (rest : String) : leadingSpaces (front ++ rest).toList = 0 := by
  obtain ⟨c, cs, hchars, hc⟩ := hopen
  rw [String.toList_append, hchars, List.cons_append, leadingSpaces_cons hc]

/-- Spaces in front of a line are leading ones. -/
theorem leadingSpaces_append {indent : String} {depth : Nat}
    (h : indent.toList = List.replicate depth ' ') (line : String) :
    leadingSpaces (indent ++ line).toList = depth + leadingSpaces line.toList := by
  have hspaces : ∀ c ∈ List.replicate depth ' ', decide (c = ' ') = true := by
    intro c hc
    rw [List.eq_of_mem_replicate hc]
    decide
  rw [leadingSpaces, String.toList_append, h, List.takeWhile_append_of_pos hspaces,
    List.length_append, List.length_replicate, leadingSpaces]

theorem toList_empty : "".toList = List.replicate 0 ' ' :=
  rfl

theorem toList_indentation : indentation.toList = List.replicate 4 ' ' :=
  rfl

theorem toList_openDagIndentation : Statement.openDagIndentation.toList = List.replicate 9 ' ' :=
  rfl

/-! ## Kinds of statements -/

/-- The kinds of statements of a DAG file. -/
inductive Kind where
  | importLine
  | blank
  | comment
  | assign
  | defaultArgs
  | openDag
  | sentinel
  | operator
  | edge
  deriving DecidableEq, Repr

/-- The kind of a statement. -/
def Statement.kind : Statement → Kind
  | importLine _ => .importLine
  | blank => .blank
  | comment _ => .comment
  | assign _ _ => .assign
  | defaultArgs _ _ => .defaultArgs
  | openDag _ _ => .openDag
  | sentinel _ => .sentinel
  | operator _ => .operator
  | edge _ => .edge

namespace Kind

/-- The spaces that open the lines of a statement before its block is taken into account. -/
def depths : Kind → List Nat
  | defaultArgs => [0, 4, 4, 0]
  | openDag => [0, 9, 9, 9]
  | operator => [0, 4, 4, 4, 4, 4, 4, 0]
  | _ => [0]

/-- The spaces that open the lines of a statement in a block of the given depth. -/
def depthsAt (depth : Nat) : Kind → List Nat
  | blank => [0]
  | k => k.depths.map (depth + ·)

/-- The depth of the block after a statement. -/
def depthAfter (depth : Nat) : Kind → Nat
  | openDag => 4
  | _ => depth

end Kind

/-- The spaces that open the lines of statements of which the first stands in a block of the given
depth. -/
def depthsFrom (depth : Nat) : List Kind → List Nat
  | [] => []
  | k :: ks => k.depthsAt depth ++ depthsFrom (k.depthAfter depth) ks

/-! ## Legible statements -/

/-- Whether a side of a dependency has tasks and all of them are identifiers. -/
def Node.Legible (n : Node) : Prop :=
  n.names ≠ [] ∧ ∀ name ∈ n.names, IsIdentifier name

/-- Whether the names that a statement uses are identifiers. -/
def Statement.Legible : Statement → Prop
  | importLine line => leadingSpaces line.toList = 0
  | assign target _ => IsIdentifier target
  | sentinel name => IsIdentifier name
  | operator op => IsIdentifier op.symbol
  | edge e => e.source.Legible ∧ e.target.Legible
  | _ => True

/-- An identifier holds the characters of symbols only. -/
theorem isAllowed_of_mem_identifier {name : String} (h : IsIdentifier name) {c : Char}
    (hc : c ∈ name.toList) : Symbol.isAllowed c = true := by
  obtain ⟨d, ds, hname, hd, hds⟩ := h
  rw [hname] at hc
  rcases List.mem_cons.mp hc with rfl | hc
  · rcases hd with hd | rfl
    · simp [Symbol.isAllowed, Char.isAlphanum, hd]
    · decide
  · rcases hds c hc with hd | hd | rfl
    · simp [Symbol.isAllowed, Char.isAlphanum, hd]
    · simp [Symbol.isAllowed, Char.isAlphanum, hd]
    · decide

/-- An identifier holds no character that is not allowed in symbols. -/
theorem not_mem_identifier {name : String} (h : IsIdentifier name) {c : Char}
    (hc : Symbol.isAllowed c = false) : c ∉ name.toList := by
  intro hmem
  rw [isAllowed_of_mem_identifier h hmem] at hc
  cases hc

/-- An identifier has no space in front. -/
theorem leadingSpaces_identifier {name : String} (h : IsIdentifier name) (rest : String) :
    leadingSpaces (name ++ rest).toList = 0 := by
  have hspace : ' ' ∉ name.toList := not_mem_identifier h (by decide)
  obtain ⟨c, cs, hname, -⟩ := h
  rw [hname, List.mem_cons, not_or] at hspace
  rw [String.toList_append, hname, List.cons_append, leadingSpaces_cons (Ne.symm hspace.1)]

/-- The side of a dependency has no space in front. -/
theorem leadingSpaces_node {n : Node} (h : n.Legible) (rest : String) :
    leadingSpaces (n.text ++ rest).toList = 0 := by
  cases n with
  | single name => exact leadingSpaces_identifier (h.2 name (List.mem_singleton_self name)) rest
  | group names =>
      rw [Node.text, String.append_assoc, String.append_assoc, String.toList_append]
      exact leadingSpaces_cons (by decide) _

/-- The lines of a legible statement are opened by as many spaces as its kind says. -/
theorem map_leadingSpaces_bareLines {s : Statement} (h : s.Legible) :
    s.bareLines.map (fun line => leadingSpaces line.toList) = s.kind.depths := by
  have hargument {front : String} (hopen : ∃ c cs, front.toList = c :: cs ∧ c ≠ ' ')
      (rest : String) :
      leadingSpaces (indentation ++ (front ++ rest)).toList = 4 := by
    rw [leadingSpaces_append toList_indentation, leadingSpaces_front hopen]
  cases s with
  | importLine line => exact congrArg ([·]) h
  | blank => rfl
  | comment text => exact congrArg ([·]) (leadingSpaces_front ⟨_, _, rfl, by decide⟩ text)
  | assign target expression =>
      rw [Statement.bareLines, String.append_assoc]
      exact congrArg ([·]) (leadingSpaces_identifier h _)
  | defaultArgs owner startDate =>
      simp only [Statement.bareLines, String.append_assoc, List.map_cons, List.map_nil]
      rw [hargument ⟨_, _, rfl, by decide⟩, hargument ⟨_, _, rfl, by decide⟩]
      rfl
  | openDag dagId scheduleVariable =>
      have halign (front rest : String) (hopen : ∃ c cs, front.toList = c :: cs ∧ c ≠ ' ') :
          leadingSpaces (Statement.openDagIndentation ++ (front ++ rest)).toList = 9 := by
        rw [leadingSpaces_append toList_openDagIndentation, leadingSpaces_front hopen]
      simp only [Statement.bareLines, String.append_assoc, List.map_cons, List.map_nil]
      rw [leadingSpaces_front ⟨_, _, rfl, by decide⟩, halign _ _ ⟨_, _, rfl, by decide⟩]
      rfl
  | sentinel name =>
      simp only [Statement.bareLines, String.append_assoc, List.map_cons, List.map_nil]
      rw [leadingSpaces_identifier h]
      rfl
  | operator op =>
      simp only [Statement.bareLines, Statement.operatorLines, String.append_assoc, List.map_cons,
        List.map_nil]
      rw [leadingSpaces_identifier h, hargument ⟨_, _, rfl, by decide⟩,
        hargument ⟨_, _, rfl, by decide⟩, hargument ⟨_, _, rfl, by decide⟩,
        hargument ⟨_, _, rfl, by decide⟩, hargument ⟨_, _, rfl, by decide⟩]
      rfl
  | edge e =>
      rw [Statement.bareLines, Edge.text, String.append_assoc]
      exact congrArg ([·]) (leadingSpaces_node h.1 _)

/-- How far the lines of a statement are indented depends on its kind and on its block. -/
theorem map_leadingSpaces_lines {indent : String} {depth : Nat}
    (hindent : indent.toList = List.replicate depth ' ') {s : Statement} (h : s.Legible) :
    (s.lines indent).map (fun line => leadingSpaces line.toList) = s.kind.depthsAt depth := by
  have hindented : (s.bareLines.map (indent ++ ·)).map (fun line => leadingSpaces line.toList) =
      s.kind.depths.map (depth + ·) := by
    rw [← map_leadingSpaces_bareLines h, List.map_map, List.map_map]
    exact List.map_congr_left fun line _ => leadingSpaces_append hindent line
  cases s with
  | blank => rfl
  | _ => exact hindented

/-- The lines of legible statements are opened by as many spaces as their kinds say. -/
theorem map_leadingSpaces_linesFrom {indent : String} {depth : Nat}
    (hindent : indent.toList = List.replicate depth ' ') {ss : List Statement}
    (h : ∀ s ∈ ss, s.Legible) :
    (linesFrom indent ss).map (fun line => leadingSpaces line.toList) =
      depthsFrom depth (ss.map Statement.kind) := by
  induction ss generalizing indent depth with
  | nil => rfl
  | cons s ss ih =>
      obtain ⟨hs, hss⟩ := List.forall_mem_cons.mp h
      have hafter : (s.indentAfter indent).toList =
          List.replicate (s.kind.depthAfter depth) ' ' := by
        cases s with
        | openDag dagId scheduleVariable => exact toList_indentation
        | _ => exact hindent
      rw [linesFrom, List.map_append, map_leadingSpaces_lines hindent hs, ih hafter hss]
      rfl

/-! ## The statements of a project -/

/-- There is one dependency for each step with tasks, and one for the end. -/
theorem length_linkFrom (source : Node) (steps : List (List String)) :
    (linkFrom source steps).length = (steps.filterMap Node.ofSymbols?).length + 1 := by
  induction steps generalizing source with
  | nil => rfl
  | cons step steps ih =>
      cases hnode : Node.ofSymbols? step with
      | none => rw [linkFrom, hnode, List.filterMap_cons_none hnode, ih]
      | some target =>
          rw [linkFrom, hnode, List.filterMap_cons_some hnode, List.length_cons, ih,
            List.length_cons]

/-- The kinds of the statements of a project with so many tasks and steps. -/
def kindsOf (tasks steps : Nat) : List Kind :=
  List.replicate 5 Kind.importLine ++
    [Kind.blank, .comment, .assign, .assign, .blank, .defaultArgs, .blank, .openDag, .blank,
      .sentinel, .sentinel, .blank] ++
    (List.replicate tasks [Kind.operator, .blank]).flatten ++
    Kind.comment :: List.replicate (steps + 1) Kind.edge

/-- The kinds of the statements depend on the numbers of tasks and steps only. -/
theorem kinds_statements (settings : Settings) {c : Config} (h : c.WellFormed) :
    (statements settings c).map Statement.kind = kindsOf c.tasks.length c.pipeline.length := by
  have himports : (imports c).map Statement.kind = List.replicate 5 .importLine := by
    rw [imports, taskImport_of_ne_nil h.symbols_nonempty]
    rfl
  have hoperators : (operators settings c).map Statement.kind =
      (List.replicate c.tasks.length [.operator, .blank]).flatten := by
    have hblock (t : Task) : List.map Statement.kind
        [.operator (.ofTask t c.pools settings.defaultPool), .blank] = [.operator, .blank] := rfl
    simp only [operators, List.map_flatMap, hblock]
    rw [List.flatMap_def, List.map_const']
  have hflow : (flow c).map Statement.kind =
      .comment :: List.replicate (c.pipeline.length + 1) .edge := by
    rw [flow, List.map_cons, List.map_map, link, ← c.pipeline.length_map stepNode,
      ← filterMap_ofSymbols?_pipeline h.step_nonempty, ← length_linkFrom]
    exact congrArg (Kind.comment :: ·) List.map_const'
  rw [statements, List.map_append, List.map_append, List.map_append, himports, hoperators, hflow]
  rfl

/-- The side that stands for a step of a valid project is legible. -/
theorem legible_stepNode {c : Config} (h : c.WellFormed) {s : DagScaffold.Step}
    (hs : s ∈ c.pipeline) :
    (stepNode s).Legible := by
  have hnames := Node.names_of_ofSymbols? (ofSymbols?_symbols (h.step_nonempty s hs))
  rw [Node.Legible, hnames]
  refine ⟨by simpa [DagScaffold.Step.symbols] using h.step_nonempty s hs, fun name hname => ?_⟩
  obtain ⟨t, ht, rfl⟩ := List.mem_map.mp hname
  exact h.plain.symbol_identifier _ (List.mem_map_of_mem (Config.mem_tasks hs ht))

/-- The imports are legible. -/
theorem legible_of_mem_imports {c : Config} : ∀ s ∈ imports c, s.Legible := by
  have htask : ∀ s ∈ taskImport c.symbols, s.Legible := by
    intro s hs
    rw [taskImport] at hs
    split_ifs at hs
    · exact absurd hs List.not_mem_nil
    · rw [List.mem_singleton.mp hs, String.append_assoc, String.append_assoc]
      exact leadingSpaces_front ⟨_, _, rfl, by decide⟩ _
  simp only [imports, List.cons_append, List.nil_append, List.forall_mem_cons]
  exact ⟨rfl, rfl, rfl, rfl, htask⟩

/-- The names that every DAG file binds are identifiers. -/
theorem isIdentifier_of_mem_configured {name : String} (h : name ∈ configured) :
    IsIdentifier name := by
  have hall : configured.all (fun name => name ≠ "" && !name.toList.head?.any Char.isDigit &&
      name.toList.all Symbol.isAllowed) = true := by decide
  simp only [List.all_eq_true, Bool.and_eq_true, decide_eq_true_eq, Bool.not_eq_true'] at hall
  obtain ⟨⟨hnonempty, hdigit⟩, hallowed⟩ := hall name h
  exact Symbol.isIdentifier_of_isAllowed hnonempty hdigit hallowed

/-- The statements before the operators are legible. -/
theorem legible_of_mem_header {settings : Settings} {c : Config} :
    ∀ s ∈ header settings c, s.Legible := by
  have hname {name : String} (h : name ∈ configured) : IsIdentifier name :=
    isIdentifier_of_mem_configured h
  simp only [header, List.forall_mem_cons, Statement.Legible, true_and]
  refine ⟨hname (by decide), hname (by decide), hname (by decide), hname (by decide), ?_⟩
  exact fun _ h => absurd h List.not_mem_nil

/-- The sides of the dependencies of a project are legible. -/
theorem legible_of_mem_nodes {c : Config} (h : c.WellFormed) :
    ∀ n ∈ Node.single startName :: c.pipeline.map stepNode ++ [.single endName], n.Legible := by
  have hsingle {name : String} (hname : name ∈ configured) : (Node.single name).Legible :=
    ⟨List.cons_ne_nil _ _, List.forall_mem_singleton.mpr (isIdentifier_of_mem_configured hname)⟩
  intro n hn
  simp only [List.mem_append, List.mem_cons, List.not_mem_nil, or_false] at hn
  rcases hn with (rfl | hn) | rfl
  · exact hsingle (by decide)
  · obtain ⟨s, hs, rfl⟩ := List.mem_map.mp hn
    exact legible_stepNode h hs
  · exact hsingle (by decide)

/-- All statements of a valid project are legible. -/
theorem legible_of_mem_statements (settings : Settings) {c : Config} (h : c.WellFormed) :
    ∀ s ∈ statements settings c, s.Legible := by
  have hsymbol {t : Task} (ht : t ∈ c.tasks) : IsIdentifier t.symbol :=
    h.plain.symbol_identifier _ (List.mem_map_of_mem ht)
  have hoperators : ∀ s ∈ operators settings c, s.Legible := by
    intro s hs
    obtain ⟨t, ht, hs⟩ := List.mem_flatMap.mp hs
    simp only [List.mem_cons, List.not_mem_nil, or_false] at hs
    rcases hs with rfl | rfl
    · exact hsymbol ht
    · trivial
  have hflow : ∀ s ∈ flow c, s.Legible := by
    rw [flow, List.forall_mem_cons]
    refine ⟨trivial, fun s hs => ?_⟩
    obtain ⟨e, he, rfl⟩ := List.mem_map.mp hs
    rw [link, mem_linkFrom_iff, filterMap_ofSymbols?_pipeline h.step_nonempty] at he
    exact ⟨legible_of_mem_nodes h _ (he.subset List.mem_cons_self),
      legible_of_mem_nodes h _ (he.subset (List.mem_cons_of_mem _ List.mem_cons_self))⟩
  simp only [statements, List.forall_mem_append]
  exact ⟨⟨⟨legible_of_mem_imports, legible_of_mem_header⟩, hoperators⟩, hflow⟩

/-- The outline of a DAG file from the numbers of its tasks and steps. -/
theorem outline_file (settings : Settings) {c : Config} (h : c.WellFormed) :
    outline (file settings c) = depthsFrom 0 (kindsOf c.tasks.length c.pipeline.length) ++ [0] := by
  have hlines := map_leadingSpaces_linesFrom toList_empty (legible_of_mem_statements settings h)
  rw [outline, splitOn_file settings h.symbols_nonempty, List.map_append, List.map_map,
    ← kinds_statements settings h, ← hlines]
  rfl

/-! ## The block of the DAG -/

/-- The front of the line that opens the DAG. -/
def openDagFront : String := "with DAG("

/-- The lines of a text after the first one that opens a DAG. -/
def blockLines (text : String) : List (List Char) :=
  ((text.toList.splitOn '\n').dropWhile fun line => !openDagFront.toList.isPrefixOf line).tail

/-- Statements before the one that opens the DAG stand on lines of their own at their
indentation. -/
theorem linesFrom_append {indent : String} {ss : List Statement} (h : ∀ s ∈ ss, s.kind ≠ .openDag)
    (ss' : List Statement) :
    linesFrom indent (ss ++ ss') = ss.flatMap (Statement.lines indent) ++ linesFrom indent ss' := by
  induction ss with
  | nil => rfl
  | cons s ss ih =>
      obtain ⟨hs, hss⟩ := List.forall_mem_cons.mp h
      have hindent : s.indentAfter indent = indent := by
        cases s with
        | openDag dagId scheduleVariable => exact absurd rfl hs
        | _ => rfl
      rw [List.cons_append, linesFrom, hindent, ih hss, List.flatMap_cons, List.append_assoc]

/-- The statements before the one that opens the DAG. -/
def preamble (settings : Settings) (c : Config) : List Statement :=
  imports c ++ (header settings c).takeWhile (·.kind ≠ .openDag)

/-- The statements in the block of the DAG. -/
def block (settings : Settings) (c : Config) : List Statement :=
  ((header settings c).dropWhile (·.kind ≠ .openDag)).tail ++ operators settings c ++ flow c

/-- A DAG file is cut at the statement that opens the DAG. -/
theorem statements_eq_append (settings : Settings) (c : Config) :
    statements settings c =
      preamble settings c ++ .openDag c.dagId scheduleVariable :: block settings c := by
  rw [statements, preamble, block]
  simp only [List.append_assoc]
  rfl

/-- Before the DAG is opened there is no operator and no dependency. -/
theorem kind_of_mem_preamble {settings : Settings} {c : Config} :
    ∀ s ∈ preamble settings c, s.kind ≠ .openDag ∧ s.kind ≠ .operator ∧ s.kind ≠ .edge := by
  have himports : ∀ s ∈ imports c, s.kind = .importLine := by
    unfold imports taskImport
    split_ifs <;> simp [Statement.kind]
  have hkinds : ((header settings c).takeWhile (·.kind ≠ .openDag)).map Statement.kind =
      [.blank, .comment, .assign, .assign, .blank, .defaultArgs, .blank] := rfl
  have hheader : ∀ k ∈ [Kind.importLine, .blank, .comment, .assign, .assign, .blank, .defaultArgs,
      .blank], k ≠ .openDag ∧ k ≠ .operator ∧ k ≠ .edge := by decide
  intro s hs
  apply hheader
  rcases List.mem_append.mp hs with hs | hs
  · rw [himports s hs]
    exact List.mem_cons_self
  · rw [← hkinds]
    exact List.mem_cons_of_mem _ (List.mem_map_of_mem hs)

/-- No line before the one that opens the DAG has its front. -/
theorem isPrefixOf_of_mem_preamble {settings : Settings} {c : Config} (h : c.symbols ≠ []) :
    ∀ line ∈ (preamble settings c).flatMap (Statement.lines ""),
      openDagFront.toList.isPrefixOf line.toList = false := by
  have hother {front : String} (hopen : ∃ d ds, front.toList = d :: ds ∧ d ≠ 'w') (rest : String) :
      openDagFront.toList.isPrefixOf (front ++ rest).toList = false := by
    obtain ⟨d, ds, hchars, hd⟩ := hopen
    have hfront : openDagFront.toList = 'w' :: "ith DAG(".toList := rfl
    rw [hfront, String.toList_append, hchars, List.cons_append, List.isPrefixOf_cons_cons,
      beq_eq_false_iff_ne.mpr hd.symm, Bool.false_and]
  have hpreamble : preamble settings c = imports c ++ (header settings c).take 7 := rfl
  rw [hpreamble, imports, taskImport_of_ne_nil h]
  simp only [header, List.take_succ_cons, List.take_zero, List.cons_append, List.nil_append,
    List.flatMap_cons, List.flatMap_nil, Statement.lines, Statement.bareLines, List.map_cons,
    List.map_nil, String.empty_append, String.append_assoc, List.forall_mem_cons]
  -- a line is fixed, or it opens with a fixed word before a text of the project
  and_intros
  all_goals first
    | decide
    | exact hother ⟨_, _, rfl, by decide⟩ _

/-- What stands behind the line that opens the DAG are its other arguments and the lines of the
block. -/
theorem blockLines_file (settings : Settings) {c : Config} (h : c.symbols ≠ []) :
    blockLines (file settings c) =
      ((Statement.openDag c.dagId scheduleVariable).bareLines.tail ++
        linesFrom indentation (block settings c)).map String.toList ++ [[]] := by
  have hopen : openDagFront.toList.isPrefixOf
      ("" ++ ("with DAG(" ++ single c.dagId ++ ",")).toList = true := by
    rw [String.empty_append, String.append_assoc, List.isPrefixOf_iff_prefix, String.toList_append]
    exact List.prefix_append _ _
  have hbefore : ∀ line ∈ ((preamble settings c).flatMap (Statement.lines "")).map String.toList,
      (!openDagFront.toList.isPrefixOf line) = true := by
    intro line hline
    obtain ⟨text, htext, rfl⟩ := List.mem_map.mp hline
    rw [isPrefixOf_of_mem_preamble h text htext, Bool.not_false]
  rw [blockLines, splitOn_file settings h, statements_eq_append,
    linesFrom_append fun s hs => (kind_of_mem_preamble s hs).1, List.map_append, List.append_assoc,
    List.dropWhile_append_of_pos hbefore]
  simp only [linesFrom, Statement.lines, Statement.bareLines, List.map_cons, List.cons_append]
  rw [List.dropWhile_cons_of_neg (by rw [hopen]; decide)]
  simp [Statement.indentAfter]

/-- What stands behind the line that opens the DAG is blank or indented. -/
theorem four_le_leadingSpaces (settings : Settings) {c : Config} (h : c.symbols ≠ []) :
    ∀ line ∈ blockLines (file settings c), line = [] ∨ 4 ≤ leadingSpaces line := by
  have hindented {indent : String} {depth : Nat}
      (hindent : indent.toList = List.replicate depth ' ') (hdepth : 4 ≤ depth) (line : String) :
      4 ≤ leadingSpaces (indent ++ line).toList := by
    rw [leadingSpaces_append hindent]
    omega
  have harguments : ∀ line ∈ (Statement.openDag c.dagId scheduleVariable).bareLines.tail,
      line = "" ∨ 4 ≤ leadingSpaces line.toList := by
    have halign (line : String) : 4 ≤ leadingSpaces (Statement.openDagIndentation ++ line).toList :=
      hindented toList_openDagIndentation (by decide) line
    simp only [Statement.bareLines, List.tail_cons, String.append_assoc, List.forall_mem_cons]
    exact ⟨.inr (halign _), .inr (halign _), .inr (halign _), fun _ h => absurd h List.not_mem_nil⟩
  have hblock : ∀ line ∈ linesFrom indentation (block settings c),
      line = "" ∨ 4 ≤ leadingSpaces line.toList := by
    have hline (line : String) : 4 ≤ leadingSpaces (indentation ++ line).toList :=
      hindented toList_indentation (by decide) line
    exact forall_linesFrom (.inl rfl) (fun _ _ line _ => .inr (hline line))
      fun _ _ line _ => .inr (hline line)
  rw [blockLines_file settings h]
  simp only [List.forall_mem_append, List.forall_mem_map, List.forall_mem_singleton]
  refine ⟨⟨fun line hline => ?_, fun line hline => ?_⟩, .inl trivial⟩
  · exact (harguments line hline).imp_left String.toList_eq_nil_iff.mpr
  · exact (hblock line hline).imp_left String.toList_eq_nil_iff.mpr

/-- Projects that validation gives and whose pipelines have as many steps, with as many tasks in
each, have DAG files with the same number of lines, which are opened by the same number of spaces,
whatever their texts and the settings are. After the line that opens the DAG all lines are blank or
in its block, and these are all lines of the statements behind it; no statement before it is an
operator or a dependency. -/
theorem outline_eq_of_validate {p p' : Payload} {c c' : Config} (h : p.validate = .ok c)
    (h' : p'.validate = .ok c')
    (hshape : c.pipeline.map (fun s => s.tasks.length) = c'.pipeline.map fun s => s.tasks.length)
    (settings settings' : Settings) :
    outline (file settings c) = outline (file settings' c') ∧
      (∀ line ∈ blockLines (file settings c), line = [] ∨ 4 ≤ leadingSpaces line) ∧
        ∃ before after, statements settings c =
          before ++ .openDag c.dagId scheduleVariable :: after ∧
          (∀ s ∈ before, s.kind ≠ .operator ∧ s.kind ≠ .edge) ∧
          blockLines (file settings c) =
            ((Statement.openDag c.dagId scheduleVariable).bareLines.tail ++
              linesFrom indentation after).map String.toList ++ [[]] := by
  have hwell := Payload.wellFormed_of_validate h
  have hwell' := Payload.wellFormed_of_validate h'
  have hsteps : c.pipeline.length = c'.pipeline.length := by
    simpa using congrArg List.length hshape
  have htasks : c.tasks.length = c'.tasks.length := by
    rw [Config.tasks, List.length_flatMap, hshape, Config.tasks, List.length_flatMap]
  refine ⟨?_, four_le_leadingSpaces settings hwell.symbols_nonempty, preamble settings c,
    block settings c, statements_eq_append settings c, fun s hs => (kind_of_mem_preamble s hs).2,
    blockLines_file settings hwell.symbols_nonempty⟩
  rw [outline_file settings hwell, outline_file settings' hwell', hsteps, htasks]

/-- A project of the shape of `threeTasks` whose texts try to leave their lines and literals. -/
def strayingTexts : Payload where
  name := "other"
  robin := "x"
  owner := "me',\n\x7d\nwith DAG('all',"
  useConda := true
  condaEnv := "env\"\n    end >> start"
  cron := "@daily\"\nimport os #"
  pools := ["pool\n)\\"]
  pipeline := [
    { id := "s1", tasks := [{ id := "t1", name := "a\n b", selectedPool := some "'\n'" }] },
    { id := "s2", tasks := [{ id := "t2", name := "x >> y" }, { id := "t3", name := "[z]" }] }]

/-- Line feeds and quotes in the texts of a project leave the outline as it is. -/
theorem outline_eq_strayingTexts :
    threeTasks.validate = .ok threeTasks.toConfig ∧
      strayingTexts.validate = .ok strayingTexts.toConfig ∧ outline (file {} threeTasks.toConfig) =
        outline (file { defaultPool := "\n", defaultEnvName := "\"\n" } strayingTexts.toConfig) ∧
      (outline (file {} threeTasks.toConfig)).length = 55 := by
  have h : threeTasks.validate = .ok threeTasks.toConfig := by rfl
  have h' : strayingTexts.validate = .ok strayingTexts.toConfig := by rfl
  have hshape : threeTasks.toConfig.pipeline.map (fun s => s.tasks.length) =
      strayingTexts.toConfig.pipeline.map fun s => s.tasks.length := by rfl
  obtain ⟨houtline, -⟩ := outline_eq_of_validate h h' hshape {} _
  refine ⟨h, h', houtline, ?_⟩
  rw [outline_file {} (Payload.wellFormed_of_validate h)]
  rfl

end DagScaffold.Dag
