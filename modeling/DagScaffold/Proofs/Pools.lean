import Mathlib
import DagScaffold.Proofs.Agreement
import DagScaffold.Proofs.Variables

/-!
# The pools of operators

The operator of a task has the pool that the task asks for. A task that asks for none gets the first
pool of its project, and only the first one: when that has no name the operator has none either,
although another pool of the project or the default one would have.

* `RunsIn` : the pool of a task when pools without a name do not count;
* `poolOf_eq_empty_iff`, `runsIn_poolOf_iff` : when the pool of an operator is that one;
* `pools_of_validate` : the operators of a project.
-/

namespace DagScaffold

/-- The first of the texts is the first of their first mentions. -/
theorem Payload.head?_firstMentions (ss : List String) :
    (firstMentions [] ss).head? = ss.head? := by
  cases ss with
  | nil => rfl
  | cons s ss => rw [firstMentions, if_neg List.not_mem_nil, List.head?_cons, List.head?_cons]

namespace Dag

/-! ## The pool of a task -/

/-- The pool of a task when pools without a name do not count: its own, else the first pool of its
project that has a name, else the default one. -/
inductive RunsIn (task : Task) (pools : List String) (defaultPool : String) : String → Prop
  | own {pool : String} : task.selectedPool = some pool → RunsIn task pools defaultPool pool
  | declared {pool : String} {front back : List String} : task.selectedPool = none →
      pools = front ++ pool :: back → (∀ unnamed ∈ front, unnamed = "") → pool ≠ "" →
      RunsIn task pools defaultPool pool
  | default : task.selectedPool = none → (∀ unnamed ∈ pools, unnamed = "") →
      RunsIn task pools defaultPool defaultPool

variable {task : Task} {pools : List String} {defaultPool : String}

theorem RunsIn.ne_empty (hown : task.selectedPool ≠ some "") (hdefault : defaultPool ≠ "")
    {pool : String} (h : RunsIn task pools defaultPool pool) : pool ≠ "" := by
  cases h with
  | own hpool =>
      rintro rfl
      exact hown hpool
  | declared _ _ _ hne => exact hne
  | default _ _ => exact hdefault

/-- A pool without a name is left to a task that asks for none when it is the first pool of the
project. -/
theorem poolOf_eq_empty_iff (hown : task.selectedPool ≠ some "") (hdefault : defaultPool ≠ "") :
    poolOf task pools defaultPool = "" ↔ task.selectedPool = none ∧ pools.head? = some "" := by
  unfold poolOf
  cases hpool : task.selectedPool with
  | some pool =>
      have hne : pool ≠ "" := by
        rintro rfl
        exact hown hpool
      simpa using hne
  | none =>
      cases pools with
      | nil => simpa using hdefault
      | cons first rest => simp

/-- The pool of an operator is the one that counts unless it has no name. -/
theorem runsIn_poolOf_iff (hown : task.selectedPool ≠ some "") (hdefault : defaultPool ≠ "") :
    RunsIn task pools defaultPool (poolOf task pools defaultPool) ↔
      poolOf task pools defaultPool ≠ "" := by
  refine ⟨RunsIn.ne_empty hown hdefault, fun hne => ?_⟩
  unfold poolOf at hne ⊢
  cases hpool : task.selectedPool with
  | some pool => exact .own hpool
  | none =>
      rw [hpool] at hne
      cases pools with
      | nil => exact .default hpool (List.forall_mem_nil _)
      | cons first rest =>
        exact .declared hpool (List.nil_append _).symm (List.forall_mem_nil _) hne

/-! ## Operators -/

/-- The operators of a validated project stand in the order of its tasks. Each has the pool that the
task asks for, else the first pool of the project that has a name, else the default one, but for the
tasks that ask for none when the first pool of the project has no name: the operators of these have
no name in the place of the pool, and they are the only ones. The default pool of an environment has
a name. -/
theorem pools_of_validate {p : Payload} {c : Config} (h : p.validate = .ok c) {settings : Settings}
    (hdefault : settings.defaultPool ≠ "") :
    List.Forall₂
      (fun (task : Task) (op : Operator) =>
        (op.pool = "" ↔ task.selectedPool = none ∧ p.pools.head? = some "") ∧
          (RunsIn task c.pools settings.defaultPool op.pool ↔
            ¬(task.selectedPool = none ∧ p.pools.head? = some "")))
      c.tasks (operatorsOf (statements settings c)) ∧
    ∀ env s, Settings.ofEnvironment env = .ok s → s.defaultPool ≠ "" := by
  have hwell := Payload.wellFormed_of_validate h
  obtain ⟨-, rfl⟩ := (Payload.validate_eq_ok_iff p c).mp h
  have hhead : p.toConfig.pools.head? = p.pools.head? := Payload.head?_firstMentions p.pools
  refine ⟨?_, fun env s henv => ?_⟩
  · rw [operatorsOf_statements, List.forall₂_map_right_iff, ← hhead]
    refine List.forall₂_same.mpr fun task htask => ?_
    have hown := hwell.pool_nonempty task htask
    have hempty : poolOf task p.toConfig.pools settings.defaultPool = "" ↔
        task.selectedPool = none ∧ p.toConfig.pools.head? = some "" :=
      poolOf_eq_empty_iff hown hdefault
    exact ⟨hempty, (runsIn_poolOf_iff hown hdefault).trans (not_congr hempty)⟩
  · exact ((Settings.ofEnvironment_eq_ok_iff env s).mp henv).defaultPool.ne_empty (by decide)

/-- A project of which the first pool has no name, with a task that asks for a pool and one that
asks for none. -/
def namelessPool : Payload where
  name := "demo"
  robin := "rbta"
  pools := ["", "gpu"]
  pipeline := [
    { id := "s1",
      tasks := [{ id := "t1", name := "extract", selectedPool := some "io" },
        { id := "t2", name := "load" }] }]

theorem operatorsOf_namelessPool :
    operatorsOf (statements {} namelessPool.toConfig) =
      [⟨"extract", 1, "io", 1⟩, ⟨"load", 1, "", 1⟩] := by
  rw [operatorsOf_statements]
  rfl

/-- A pool without a name becomes that of a task that names none. -/
theorem pools_of_validate_namelessPool :
    namelessPool.validate = .ok namelessPool.toConfig ∧ ({} : Settings).defaultPool ≠ "" ∧
      ∃ extract load, namelessPool.toConfig.tasks = [extract, load] ∧
        RunsIn extract ["", "gpu"] "default_pool" "io" ∧
        ¬RunsIn load ["", "gpu"] "default_pool" "" := by
  have h : namelessPool.validate = .ok namelessPool.toConfig := by rfl
  have hdefault : ({} : Settings).defaultPool ≠ "" := by decide
  obtain ⟨hpools, -⟩ := pools_of_validate h hdefault
  rw [operatorsOf_namelessPool] at hpools
  obtain ⟨extract, tasks, hextract, hrest, htasks⟩ := List.forall₂_cons_right_iff.mp hpools
  obtain ⟨load, tasks, hload, hend, rfl⟩ := List.forall₂_cons_right_iff.mp hrest
  obtain rfl := List.forall₂_nil_right_iff.mp hend
  refine ⟨h, hdefault, extract, load, htasks, hextract.2.mpr ?_, hload.2.not.mpr ?_⟩
  · exact mt hextract.1.mpr (by decide)
  · exact not_not.mpr (hload.1.mp rfl)

/-- The operators of a validated project do not always have a pool with a name. -/
theorem not_forall_pool_ne :
    ¬∀ (p : Payload) (c : Config) (settings : Settings), p.validate = .ok c →
      settings.defaultPool ≠ "" → ∀ op ∈ operatorsOf (statements settings c), op.pool ≠ "" := by
  intro h
  have hne := h namelessPool namelessPool.toConfig {} (by rfl) (by decide)
  rw [operatorsOf_namelessPool] at hne
  exact hne ⟨"load", 1, "", 1⟩ (List.mem_cons_of_mem _ List.mem_cons_self) rfl

end Dag

end DagScaffold
