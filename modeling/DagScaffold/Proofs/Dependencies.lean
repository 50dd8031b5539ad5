import Mathlib
import DagScaffold.Proofs.Agreement

/-!
# The dependencies that can be executed

The side of a dependency statement is an operator or a list of operators, and a statement between
two lists is a failure when the file is run. An edge joins each step to the next one, so the file of
a project fails where two steps with several tasks follow one another, and nowhere else.

* `Operand`, `Edge.Executes` : what the sides of a statement are, and the statements that are no
  failure;
* `mem_linkFrom_iff` : the edges by what they join;
* `not_executes_iff_of_validate`, `not_forall_executes` : the statements of a project that fail.
-/

namespace DagScaffold.Dag

/-! ## Statements that can be executed -/

/-- What a side of a dependency statement is when the file is run. -/
inductive Operand where
  | operator
  | list
  deriving DecidableEq, Repr

/-- What a node is when the file is run. -/
def Node.operand : Node → Operand
  | single _ => .operator
  | group _ => .list

/-- Whether `>>` is defined between two operands. It is between two operators, from an operator to a
list and from a list to an operator. -/
def Operand.joins : Operand → Operand → Bool
  | list, list => false
  | _, _ => true

/-- Whether a dependency statement can be executed. -/
def Edge.Executes (e : Edge) : Prop :=
  e.source.operand.joins e.target.operand = true

instance : DecidablePred Edge.Executes := fun e =>
  inferInstanceAs (Decidable (e.source.operand.joins e.target.operand = true))

/-- A statement can be executed when one of its sides is a single node. -/
theorem Edge.executes_iff (e : Edge) :
    e.Executes ↔ (∃ name, e.source = .single name) ∨ ∃ name, e.target = .single name := by
  obtain ⟨source, target⟩ := e
  cases source <;> cases target <;> simp [Executes, Node.operand, Operand.joins]

/-- A dependency fails when both of its sides are groups. -/
theorem Edge.not_executes_iff (e : Edge) :
    ¬e.Executes ↔ ∃ names names', e = ⟨.group names, .group names'⟩ := by
  obtain ⟨source, target⟩ := e
  cases source <;> cases target <;> simp [Executes, Node.operand, Operand.joins]

/-! ## What the edges join -/

theorem pair_infix_cons_cons_iff {α : Type} {x y a b : α} {rest : List α} :
    [x, y] <:+: a :: b :: rest ↔ (x = a ∧ y = b) ∨ [x, y] <:+: b :: rest := by
  rw [List.infix_cons_iff, List.cons_prefix_cons, List.cons_prefix_cons]
  simp

/-- The loop over the steps makes an edge from its source to the first step with tasks, from each
such step to the next one, and from the last one to the end. -/
theorem mem_linkFrom_iff (source : Node) (steps : List (List String)) (e : Edge) :
    e ∈ linkFrom source steps ↔
      [e.source, e.target] <:+: source :: steps.filterMap Node.ofSymbols? ++ [.single endName] := by
  obtain ⟨x, y⟩ := e
  induction steps generalizing source with
  | nil =>
    show _ ↔ [x, y] <:+: source :: [Node.single endName]
    rw [linkFrom, List.mem_singleton, Edge.mk.injEq, pair_infix_cons_cons_iff, List.infix_cons_iff]
    simp
  | cons step steps ih =>
    cases hnode : Node.ofSymbols? step with
    | none =>
      -- a step without tasks makes no edge, and the source stays
      rw [linkFrom, hnode, List.filterMap_cons_none hnode]
      exact ih source
    | some target =>
      rw [linkFrom, hnode, List.filterMap_cons_some hnode, List.cons_append, List.cons_append,
        pair_infix_cons_cons_iff]
      show _ ∈ _ :: _ ↔ _
      rw [List.mem_cons, Edge.mk.injEq, ih target]
      rfl

/-- Neither the start nor the end is a group, so an edge between groups is one between steps. -/
theorem group_infix_iff {nodes : List Node} {names names' : List String} {first last : String} :
    [.group names, .group names'] <:+: .single first :: nodes ++ [.single last] ↔
      [.group names, .group names'] <:+: nodes := by
  constructor
  · intro h
    rw [List.cons_append, List.infix_cons_iff, List.infix_concat_iff] at h
    rcases h with hfront | hback | hmiddle
    · rw [List.cons_prefix_cons] at hfront
      cases hfront.1
    · rw [List.suffix_concat_iff] at hback
      rcases hback with hnil | ⟨front, heq, -⟩
      · cases hnil
      · have hlast := congrArg List.getLast? heq
        rw [List.getLast?_concat] at hlast
        cases hlast
    · exact hmiddle
  · rintro ⟨front, back, rfl⟩
    exact ⟨.single first :: front, back ++ [.single last], by simp⟩

/-! ## The steps of a project -/

/-- The node that a step with tasks makes up. -/
def stepNode (s : DagScaffold.Step) : Node :=
  match s.tasks with
  | [task] => .single task.symbol
  | _ => .group s.symbols

/-- A step with tasks has a side of a dependency. -/
theorem ofSymbols?_symbols {s : DagScaffold.Step} (h : s.tasks ≠ []) :
    Node.ofSymbols? s.symbols = some (stepNode s) := by
  obtain ⟨id, tasks⟩ := s
  match tasks with
  | [task] => rfl
  | task :: task' :: rest => rfl

/-- A step is a group when it has several tasks. -/
theorem stepNode_eq_group_iff {s : DagScaffold.Step} (h : s.tasks ≠ []) {names : List String} :
    stepNode s = .group names ↔ 1 < s.tasks.length ∧ names = s.symbols := by
  obtain ⟨id, tasks⟩ := s
  match tasks with
  | [task] => simp [stepNode]
  | task :: task' :: rest => simp [stepNode, eq_comm]

/-- Whether two steps follow one another and both have several tasks. -/
structure ParallelPair (c : Config) (s t : DagScaffold.Step) : Prop where
  adjacent : [s, t] <:+: c.pipeline
  source : 1 < s.tasks.length
  target : 1 < t.tasks.length

theorem filterMap_ofSymbols?_pipeline {c : Config} (h : ∀ s ∈ c.pipeline, s.tasks ≠ []) :
    (c.pipeline.map DagScaffold.Step.symbols).filterMap Node.ofSymbols? =
      c.pipeline.map stepNode := by
  rw [List.filterMap_map, List.filterMap_eq_map_iff_forall_eq_some]
  intro s hs
  exact ofSymbols?_symbols (h s hs)

/-- The edges of a project that join two groups are those between two steps with several tasks. -/
theorem mem_link_and_not_executes_iff {c : Config} (h : ∀ s ∈ c.pipeline, s.tasks ≠ []) (e : Edge) :
    e ∈ link (c.pipeline.map DagScaffold.Step.symbols) ∧ ¬e.Executes ↔
      ∃ s t, ParallelPair c s t ∧ e = ⟨.group s.symbols, .group t.symbols⟩ := by
  rw [link, mem_linkFrom_iff, Edge.not_executes_iff, filterMap_ofSymbols?_pipeline h]
  constructor
  · rintro ⟨hmiddle, names, names', rfl⟩
    obtain ⟨pair, hpair, hnodes⟩ := List.infix_map_iff.mp (group_infix_iff.mp hmiddle)
    -- the two nodes are those of two steps
    obtain ⟨s, t, rfl⟩ : ∃ s t, pair = [s, t] := by
      rw [← List.length_eq_two, ← pair.length_map stepNode, ← hnodes]
      rfl
    have hs : s ∈ c.pipeline := hpair.subset List.mem_cons_self
    have ht : t ∈ c.pipeline := hpair.subset (List.mem_cons_of_mem s List.mem_cons_self)
    injection hnodes with hsource hrest
    injection hrest with htarget
    obtain ⟨hlength, rfl⟩ := (stepNode_eq_group_iff (h s hs)).mp hsource.symm
    obtain ⟨hlength', rfl⟩ := (stepNode_eq_group_iff (h t ht)).mp htarget.symm
    exact ⟨s, t, ⟨hpair, hlength, hlength'⟩, rfl⟩
  · rintro ⟨s, t, hpair, rfl⟩
    have hs : s ∈ c.pipeline := hpair.adjacent.subset List.mem_cons_self
    have ht : t ∈ c.pipeline := hpair.adjacent.subset (List.mem_cons_of_mem s List.mem_cons_self)
    refine ⟨group_infix_iff.mpr (List.infix_map_iff.mpr ⟨[s, t], hpair.adjacent, ?_⟩), _, _, rfl⟩
    rw [List.map_cons, List.map_singleton, (stepNode_eq_group_iff (h s hs)).mpr ⟨hpair.source, rfl⟩,
      (stepNode_eq_group_iff (h t ht)).mpr ⟨hpair.target, rfl⟩]

/-- No two steps with several tasks follow one another when each step or the next one has one
task. -/
theorem isChain_iff_not_parallelPair {c : Config} :
    c.pipeline.IsChain (fun s t => s.tasks.length ≤ 1 ∨ t.tasks.length ≤ 1) ↔
      ∀ s t, ¬ParallelPair c s t := by
  rw [List.isChain_iff_forall_rel_of_append_cons_cons]
  constructor
  · rintro h s t ⟨⟨front, back, hpipeline⟩, hs, ht⟩
    have hone := @h s t front back (by rw [← hpipeline]; simp)
    omega
  · intro h s t front back hpipeline
    by_contra hmany
    apply h s t
    constructor
    · exact ⟨front, back, by rw [hpipeline]; simp⟩
    · omega
    · omega

/-- The dependency statements of a validated project that cannot be executed are those from a step
with several tasks to the next step with several tasks: each side is the list of all tasks of its
step. All others have a single node on one side at least. So all of them can be executed when no two
such steps follow one another, and only then. -/
theorem not_executes_iff_of_validate {p : Payload} {c : Config} (h : p.validate = .ok c)
    (settings : Settings) :
    (∀ e, e ∈ edgesOf (statements settings c) ∧ ¬e.Executes ↔
      ∃ s t, ParallelPair c s t ∧ e = ⟨.group s.symbols, .group t.symbols⟩) ∧
    ((∀ e ∈ edgesOf (statements settings c),
        (∃ name, e.source = .single name) ∨ ∃ name, e.target = .single name) ↔
      c.pipeline.IsChain fun s t => s.tasks.length ≤ 1 ∨ t.tasks.length ≤ 1) := by
  have hfailing := fun e => mem_link_and_not_executes_iff
    (Payload.wellFormed_of_validate h).step_nonempty e
  rw [edgesOf_statements, isChain_iff_not_parallelPair]
  refine ⟨hfailing, ?_⟩
  constructor
  · intro hall s t hpair
    obtain ⟨hmem, hfails⟩ := (hfailing _).mpr ⟨s, t, hpair, rfl⟩
    exact hfails ((Edge.executes_iff _).mpr (hall _ hmem))
  · intro hnone e he
    rw [← Edge.executes_iff]
    by_contra hfails
    obtain ⟨s, t, hpair, -⟩ := (hfailing e).mp ⟨he, hfails⟩
    exact hnone s t hpair

/-- A pipeline of three steps, of which the first two have two tasks each. -/
def pairedTasks : Payload where
  name := "demo"
  robin := "rbta"
  pipeline := [
    { id := "s1", tasks := [{ id := "t1", name := "A" }, { id := "t2", name := "B" }] },
    { id := "s2", tasks := [{ id := "t3", name := "C" }, { id := "t4", name := "D" }] },
    { id := "s3", tasks := [{ id := "t5", name := "E" }] }]

/-- Two steps of two tasks each are linked by a dependency that fails. -/
theorem not_executes_iff_pairedTasks :
    pairedTasks.validate = .ok pairedTasks.toConfig ∧
      ∃ e ∈ edgesOf (statements {} pairedTasks.toConfig), ¬e.Executes ∧
        e = ⟨.group ["A", "B"], .group ["C", "D"]⟩ := by
  have hvalid : pairedTasks.validate = .ok pairedTasks.toConfig := by rfl
  obtain ⟨hfailing, -⟩ := not_executes_iff_of_validate hvalid {}
  have hpair : ParallelPair pairedTasks.toConfig pairedTasks.toConfig.pipeline[0]
      pairedTasks.toConfig.pipeline[1] :=
    ⟨⟨[], pairedTasks.toConfig.pipeline.drop 2, by rfl⟩, by decide, by decide⟩
  obtain ⟨hmem, hfails⟩ := (hfailing _).mpr ⟨_, _, hpair, rfl⟩
  exact ⟨hvalid, _, hmem, hfails, by rfl⟩

/-- Not every dependency statement of a validated project has a single node on one side. -/
theorem not_forall_executes :
    ¬∀ (settings : Settings) (p : Payload) (c : Config), p.validate = .ok c →
      ∀ e ∈ edgesOf (statements settings c),
        (∃ name, e.source = .single name) ∨ ∃ name, e.target = .single name := by
  intro h
  have hall := h {} pairedTasks pairedTasks.toConfig (by rfl)
  have hmem : (⟨.group ["A", "B"], .group ["C", "D"]⟩ : Edge) ∈
      edgesOf (statements {} pairedTasks.toConfig) := by
    rw [edgesOf_statements]
    decide
  exact absurd ((Edge.executes_iff _).mpr (hall _ hmem)) (by decide)

end DagScaffold.Dag
