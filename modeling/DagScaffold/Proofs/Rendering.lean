import Mathlib
import DagScaffold.Proofs.Fronts
import DagScaffold.Proofs.Literals
import DagScaffold.Proofs.Outline

/-!
# A DAG file tells its statements

What stands in a statement is found in its lines: names end at the first character that they cannot
hold, and literals at their closing quote. The statements of two files with the same lines are
compared one after the other when they have the same kinds, and these follow from the import of the
functions and the number of lines. So the text of a DAG file belongs to one list of statements only.

* `append_mark_inj` : a name and what follows it, from the text of both;
* `Node.text_inj`, `dateCall_inj` : sides of dependencies and dates from their texts;
* `bareLines_inj`, `linesFrom_inj` : statements from their lines;
* `file_eq_iff_of_validate` : DAG files are the same when their statements are.
-/

namespace DagScaffold.Dag

open DagScaffold.Manifest (splitAtFirst? splitAtFirst?_append)
open DagScaffold.Symbol (IsIdentifier)

/-! ## Parts of lines -/

/-- A name that does not hold the first character of a mark ends where the mark begins. -/
theorem append_mark_inj {mark : String} {m : Char} {ms : List Char} (hmark : mark.toList = m :: ms)
    {name name' rest rest' : String} (hname : m ∉ name.toList) (hname' : m ∉ name'.toList)
    (h : name ++ (mark ++ rest) = name' ++ (mark ++ rest')) : name = name' ∧ rest = rest' := by
  have hsplit (s t : String) (hs : m ∉ s.toList) :
      splitAtFirst? mark.toList (s ++ (mark ++ t)).toList = some (s.toList, t.toList) := by
    rw [String.toList_append, String.toList_append, hmark]
    exact splitAtFirst?_append t.toList hs
  have hparts := congrArg (fun s => splitAtFirst? mark.toList s.toList) h
  simp only [hsplit _ _ hname, hsplit _ _ hname', Option.some.injEq, Prod.mk.injEq,
    String.toList_inj] at hparts
  exact hparts

/-- Two dates with the same call are the same. -/
theorem dateCall_inj {d d' : Date} (h : Statement.dateCall d = Statement.dateCall d') : d = d' := by
  obtain ⟨year, month, day, hexists⟩ := d
  obtain ⟨year', month', day', hexists'⟩ := d'
  simp only [Statement.dateCall, String.append_assoc, String.append_right_inj] at h
  obtain ⟨hyear, hrest⟩ := append_mark_inj rfl (not_mem_toString_int (by decide) (by decide) year)
    (not_mem_toString_int (by decide) (by decide) year') h
  obtain ⟨hmonth, hend⟩ := append_mark_inj rfl (not_mem_toString (by decide) month)
    (not_mem_toString (by decide) month') hrest
  obtain rfl := Int.repr_inj.mp hyear
  obtain rfl := Nat.repr_inj.mp hmonth
  obtain rfl := Nat.repr_inj.mp ((String.append_left_inj _).mp hend)
  rfl

/-! ## Sides of dependencies -/

theorem not_mem_legible {n : Node} (h : n.Legible) {c : Char} (hc : Symbol.isAllowed c = false)
    (hmark : c ∉ "[, ]".toList) : c ∉ n.text.toList :=
  not_mem_text hmark fun name hname => not_mem_identifier (h.2 name hname) hc

/-- The text of a group tells its names. -/
theorem intercalate_inj {names names' : List String} (hnonempty : names ≠ [])
    (hnonempty' : names' ≠ []) (hnames : ∀ name ∈ names, IsImportable name)
    (hnames' : ∀ name ∈ names', IsImportable name)
    (h : ", ".intercalate names = ", ".intercalate names') : names = names' := by
  have hsplit := congrArg (fun s => importedNames s.toList) h
  simp only [importedNames_intercalate hnonempty hnames,
    importedNames_intercalate hnonempty' hnames'] at hsplit
  exact List.map_injective_iff.mpr (fun _ _ => String.toList_inj.mp) hsplit

/-- No side is written like another one: a name has no bracket, and a group opens with one. -/
theorem Node.text_inj {n n' : Node} (h : n.Legible) (h' : n'.Legible) (heq : n.text = n'.text) :
    n = n' := by
  have himportable {n : Node} (h : n.Legible) : ∀ name ∈ n.names, IsImportable name :=
    fun name hname => ⟨not_mem_identifier (h.2 name hname) (by decide),
      not_mem_identifier (h.2 name hname) (by decide)⟩
  have hbracket {name : String} {names : List String} (h : (single name).Legible) :
      (single name).text ≠ (group names).text := by
    intro heq
    have hopen : '[' ∈ (group names).text.toList := by
      rw [Node.text, String.append_assoc, String.toList_append]
      exact List.mem_append_left _ List.mem_cons_self
    rw [← heq] at hopen
    exact not_mem_identifier (h.2 name (List.mem_singleton_self name)) (by decide) hopen
  cases n with
  | single name =>
      cases n' with
      | single name' => exact congrArg single heq
      | group names' => exact absurd heq (hbracket h)
  | group names =>
      cases n' with
      | single name' => exact absurd heq.symm (hbracket h')
      | group names' =>
          rw [Node.text, Node.text, String.append_left_inj, String.append_right_inj] at heq
          exact congrArg group (intercalate_inj h.1 h'.1 (himportable h) (himportable h') heq)

/-- Two legible dependencies with the same text are the same. -/
theorem Edge.text_inj {e e' : Edge} (h : e.source.Legible ∧ e.target.Legible)
    (h' : e'.source.Legible ∧ e'.target.Legible) (heq : e.text = e'.text) : e = e' := by
  have hfree {n : Node} (h : n.Legible) : '>' ∉ (n.text ++ " ").toList := by
    rw [String.toList_append, List.mem_append, not_or]
    exact ⟨not_mem_legible h (by decide) (by decide), by decide⟩
  -- the arrow is cut behind its space, which a group holds as well
  have harrow (e : Edge) : e.text = (e.source.text ++ " ") ++ (">> " ++ e.target.text) := by
    rw [← String.toList_inj]
    simp [Edge.text]
  rw [harrow, harrow] at heq
  obtain ⟨hsource, htarget⟩ := append_mark_inj rfl (hfree h.1) (hfree h'.1) heq
  obtain ⟨source, target⟩ := e
  obtain ⟨source', target'⟩ := e'
  rw [Edge.mk.injEq]
  exact ⟨Node.text_inj h.1 h'.1 ((String.append_left_inj _).mp hsource),
    Node.text_inj h.2 h'.2 htarget⟩

/-! ## Statements -/

/-- A legible statement is found in its lines when its kind is known. -/
theorem bareLines_inj {s s' : Statement} (h : s.Legible) (h' : s'.Legible)
    (hkind : s.kind = s'.kind) (hlines : s.bareLines = s'.bareLines) : s = s' := by
  have hspace {name : String} (hname : IsIdentifier name) : ' ' ∉ name.toList :=
    not_mem_identifier hname (by decide)
  have hsingle {v w : String} : single v = single w ↔ v = w := single_injective.eq_iff
  match s, s', hkind with
  | .importLine line, .importLine line', _ =>
      exact congrArg Statement.importLine (List.singleton_inj.mp hlines)
  | .blank, .blank, _ => rfl
  | .comment text, .comment text', _ =>
      exact congrArg Statement.comment
        ((String.append_right_inj _).mp (List.singleton_inj.mp hlines))
  | .assign target expression, .assign target' expression', _ =>
      simp only [Statement.bareLines, String.append_assoc, List.singleton_inj] at hlines
      obtain ⟨rfl, rfl⟩ := append_mark_inj rfl (hspace h) (hspace h') hlines
      rfl
  | .defaultArgs owner date, .defaultArgs owner' date', _ =>
      simp only [Statement.bareLines, List.cons.injEq, String.append_left_inj,
        String.append_right_inj, hsingle] at hlines
      obtain ⟨-, rfl, hdate, -⟩ := hlines
      rw [dateCall_inj hdate]
  | .openDag dagId scheduleVariable, .openDag dagId' scheduleVariable', _ =>
      simp only [Statement.bareLines, List.cons.injEq, String.append_left_inj,
        String.append_right_inj, hsingle] at hlines
      obtain ⟨rfl, -, rfl, -⟩ := hlines
      rfl
  | .sentinel name, .sentinel name', _ =>
      simp only [Statement.bareLines, String.append_assoc, List.singleton_inj] at hlines
      obtain ⟨rfl, -⟩ := append_mark_inj rfl (hspace h) (hspace h') hlines
      rfl
  | .operator op, .operator op', _ =>
      obtain ⟨symbol, weight, pool, slots⟩ := op
      obtain ⟨symbol', weight', pool', slots'⟩ := op'
      simp only [Statement.bareLines, Statement.operatorLines, List.cons.injEq,
        String.append_left_inj, String.append_right_inj, hsingle] at hlines
      obtain ⟨rfl, -, -, hweight, rfl, hslots, -⟩ := hlines
      rw [Nat.repr_inj.mp hweight, Nat.repr_inj.mp hslots]
  | .edge e, .edge e', _ =>
      exact congrArg Statement.edge (Edge.text_inj h h' (List.singleton_inj.mp hlines))

theorem lines_inj {indent : String} {s s' : Statement} (h : s.Legible) (h' : s'.Legible)
    (hkind : s.kind = s'.kind) (hlines : s.lines indent = s'.lines indent) : s = s' := by
  have hindented (hmap : s.bareLines.map (indent ++ ·) = s'.bareLines.map (indent ++ ·)) : s = s' :=
    bareLines_inj h h' hkind
      (List.map_injective_iff.mpr (fun _ _ => (String.append_right_inj _).mp) hmap)
  cases s with
  | blank =>
      cases s' with
      | blank => rfl
      | _ => cases hkind
  | _ =>
      cases s' with
      | blank => cases hkind
      | _ => exact hindented hlines

theorem length_lines (indent : String) (s : Statement) :
    (s.lines indent).length = s.kind.depths.length := by
  cases s <;> rfl

/-- The statements behind lines are told one after the other when their kinds are known. -/
theorem linesFrom_inj {indent : String} {ss ss' : List Statement} (h : ∀ s ∈ ss, s.Legible)
    (h' : ∀ s ∈ ss', s.Legible) (hkinds : ss.map Statement.kind = ss'.map Statement.kind)
    (hlines : linesFrom indent ss = linesFrom indent ss') : ss = ss' := by
  induction ss generalizing indent ss' with
  | nil => exact (List.map_eq_nil_iff.mp hkinds.symm).symm
  | cons s ss ih =>
      cases ss' with
      | nil => cases hkinds
      | cons s' ss' =>
          obtain ⟨hkind, hrest⟩ := List.cons.inj hkinds
          obtain ⟨hs, hss⟩ := List.forall_mem_cons.mp h
          obtain ⟨hs', hss'⟩ := List.forall_mem_cons.mp h'
          -- statements of one kind have the same number of lines
          have hlength : (s.lines indent).length = (s'.lines indent).length := by
            rw [length_lines, length_lines, hkind]
          obtain ⟨hhead, htail⟩ := List.append_inj hlines hlength
          obtain rfl := lines_inj hs hs' hkind hhead
          rw [ih hss hss' hrest htail]

/-! ## DAG files -/

theorem length_linesFrom (indent : String) (ss : List Statement) :
    (linesFrom indent ss).length = ((ss.map Statement.kind).map fun k => k.depths.length).sum := by
  induction ss generalizing indent with
  | nil => rfl
  | cons s ss ih =>
      rw [linesFrom, List.length_append, length_lines, ih, List.map_cons, List.map_cons,
        List.sum_cons]

/-- Each task takes nine lines of a DAG file, and each step one. -/
theorem sum_kindsOf (tasks steps : Nat) :
    ((kindsOf tasks steps).map fun k => k.depths.length).sum = 25 + 9 * tasks + steps := by
  have hoperators : (((List.replicate tasks [Kind.operator, .blank]).flatten).map
      fun k => k.depths.length).sum = tasks * 9 := by
    rw [List.map_flatten, List.sum_flatten, List.map_replicate, List.map_replicate,
      List.sum_replicate]
    rfl
  have hflow : ((Kind.comment :: List.replicate (steps + 1) Kind.edge).map
      fun k => k.depths.length).sum = 1 + (steps + 1) * 1 := by
    rw [List.map_cons, List.sum_cons, List.map_replicate, List.sum_replicate]
    rfl
  rw [kindsOf, List.map_append, List.sum_append, hflow, List.map_append, List.sum_append,
    hoperators]
  simp only [List.replicate, List.map_cons, List.map_nil, List.cons_append, List.nil_append,
    List.sum_cons, List.sum_nil, Kind.depths, List.length_cons, List.length_nil]
  omega

/-- The lines of a DAG file are those of its statements. -/
theorem linesFrom_eq_of_file_eq {settings settings' : Settings} {c c' : Config} (h : c.symbols ≠ [])
    (h' : c'.symbols ≠ []) (heq : file settings c = file settings' c') :
    linesFrom "" (statements settings c) = linesFrom "" (statements settings' c') := by
  have hsplit := congrArg (fun text => text.toList.splitOn '\n') heq
  simp only [splitOn_file _ h, splitOn_file _ h'] at hsplit
  exact List.map_injective_iff.mpr (fun _ _ => String.toList_inj.mp)
    (List.append_cancel_right hsplit)

/-- DAG files of one text have the same kinds of statements. -/
theorem kinds_eq_of_file_eq {settings settings' : Settings} {c c' : Config} (h : c.WellFormed)
    (h' : c'.WellFormed) (heq : file settings c = file settings' c') :
    (statements settings c).map Statement.kind = (statements settings' c').map Statement.kind := by
  have hkinds := kinds_statements settings h
  have hkinds' := kinds_statements settings' h'
  -- the import of the functions tells the number of tasks
  have htasks : c.tasks.length = c'.tasks.length := by
    have hsymbols := congrArg importedFunctions heq
    rw [importedFunctions_file settings h.symbols_nonempty,
      importedFunctions_file settings' h'.symbols_nonempty] at hsymbols
    simpa [Config.symbols] using congrArg List.length (List.singleton_inj.mp hsymbols)
  have hsteps : c.pipeline.length = c'.pipeline.length := by
    have hlines := congrArg List.length
      (linesFrom_eq_of_file_eq h.symbols_nonempty h'.symbols_nonempty heq)
    rw [length_linesFrom, length_linesFrom, hkinds, hkinds', sum_kindsOf, sum_kindsOf] at hlines
    omega
  rw [hkinds, hkinds', htasks, hsteps]

/-- Two validated projects have the same DAG file, under any settings, when the statements of their
DAGs are the same, and only then. -/
theorem file_eq_iff_of_validate {p p' : Payload} {c c' : Config} (h : p.validate = .ok c)
    (h' : p'.validate = .ok c') (settings settings' : Settings) :
    file settings c = file settings' c' ↔ statements settings c = statements settings' c' := by
  have hwell := Payload.wellFormed_of_validate h
  have hwell' := Payload.wellFormed_of_validate h'
  constructor
  · intro heq
    exact linesFrom_inj (legible_of_mem_statements settings hwell)
      (legible_of_mem_statements settings' hwell') (kinds_eq_of_file_eq hwell hwell' heq)
      (linesFrom_eq_of_file_eq hwell.symbols_nonempty hwell'.symbols_nonempty heq)
  · exact congrArg render

/-- The tasks of `threeTasks` in other steps. -/
def regrouped : Payload where
  name := "demo"
  robin := "rbta"
  pipeline := [
    { id := "s1", tasks := [{ id := "t1", name := "extract" }, { id := "t2", name := "load-a" }] },
    { id := "s2", tasks := [{ id := "t3", name := "load b!" }] }]

/-- The same tasks in other steps make another DAG file. -/
theorem file_ne_regrouped :
    threeTasks.validate = .ok threeTasks.toConfig ∧ regrouped.validate = .ok regrouped.toConfig ∧
      threeTasks.toConfig.symbols = regrouped.toConfig.symbols ∧
      file {} threeTasks.toConfig ≠ file {} regrouped.toConfig := by
  have h : threeTasks.validate = .ok threeTasks.toConfig := by rfl
  have h' : regrouped.validate = .ok regrouped.toConfig := by rfl
  refine ⟨h, h', by rfl, fun heq => ?_⟩
  have hedges := congrArg edgesOf ((file_eq_iff_of_validate h h' {} {}).mp heq)
  rw [edgesOf_statements, edgesOf_statements] at hedges
  exact absurd hedges (by decide)

end DagScaffold.Dag
