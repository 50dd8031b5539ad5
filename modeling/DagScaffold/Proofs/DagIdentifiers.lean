import Mathlib
import DagScaffold.Dag.File
import DagScaffold.Proofs.Confinement
import DagScaffold.Proofs.Validity

/-!
# Identifiers of DAGs

The identifier of a DAG cannot hold a hyphen, so it has an underscore for every hyphen of the
project's name. Two projects whose names differ in nothing else therefore have folders and files of
their own, but DAGs with the same identifier.

* `SameWords` : names that differ in hyphens and underscores only;
* `dagId_eq_iff` : the projects whose DAGs have the same identifier;
* `dagId_eq_iff_of_validate` : projects with different names, side by side in a workspace.
-/

namespace DagScaffold

/-! ## Names with the same words -/

/-- Whether two characters are the same, or both a hyphen or an underscore. -/
def Alike (x y : Char) : Prop :=
  x = y ∨ (x = '-' ∨ x = '_') ∧ (y = '-' ∨ y = '_')

instance (x y : Char) : Decidable (Alike x y) :=
  inferInstanceAs (Decidable (_ ∨ _))

/-- Whether two names differ at most in places where both have a hyphen or an underscore. -/
def SameWords (name other : String) : Prop :=
  List.Forall₂ Alike name.toList other.toList

instance (name other : String) : Decidable (SameWords name other) :=
  inferInstanceAs (Decidable (List.Forall₂ Alike _ _))

theorem alike_iff (x y : Char) :
    Alike x y ↔ (if x = '-' then '_' else x) = if y = '-' then '_' else y := by
  unfold Alike
  by_cases hx : x = '-'
  · subst hx
    by_cases hy : y = '-'
    · simp [hy]
    · simp [hy, eq_comm]
  · by_cases hy : y = '-'
    · subst hy
      simp [hx]
    · simp only [hx, hy, false_or, if_false]
      refine ⟨fun h => ?_, Or.inl⟩
      rcases h with rfl | ⟨rfl, rfl⟩ <;> rfl

/-- Two projects have DAGs with the same identifier when their names have the same words. -/
theorem Config.dagId_eq_iff (c d : Config) : c.dagId = d.dagId ↔ SameWords c.name d.name := by
  have hmap : SameWords c.name d.name ↔
      c.name.toList.map (fun x => if x = '-' then '_' else x) =
        d.name.toList.map fun x => if x = '-' then '_' else x := by
    have halike : Alike = fun x y => (if x = '-' then '_' else x) = if y = '-' then '_' else y := by
      funext x y
      exact propext (alike_iff x y)
    rw [← List.forall₂_eq_eq_eq, List.forall₂_map_left_iff, List.forall₂_map_right_iff, SameWords,
      halike]
  rw [hmap, dagId, dagId, String.append_right_inj, String.ofList_inj]

namespace Dag

open Payload (called)

/-- A DAG file opens one DAG, under the identifier of its project. -/
theorem openDag_mem_statements_iff (settings : Settings) (c : Config) (id variable' : String) :
    .openDag id variable' ∈ statements settings c ↔
      id = c.dagId ∧ variable' = scheduleVariable := by
  have himports : .openDag id variable' ∉ imports c := by
    rw [imports, taskImport]
    split_ifs <;> simp
  have hoperators : .openDag id variable' ∉ operators settings c := by simp [operators]
  have hflow : .openDag id variable' ∉ flow c := by simp [flow]
  simp [statements, header, himports, hoperators, hflow]

/-! ## Projects side by side -/

/-- Two validated projects with different names have folders and DAG files of their own. The DAGs
that these files open have different identifiers, but for names with the same words: then both have
the same one. -/
theorem dagId_eq_iff_of_validate {p q : Payload} {c d : Config} (hp : p.validate = .ok c)
    (hq : q.validate = .ok d) (hne : c.name ≠ d.name) (settings : Settings) :
    (c.dagId = d.dagId ↔ SameWords c.name d.name) ∧
      (∀ id variable', .openDag id variable' ∈ statements settings c ↔
        id = c.dagId ∧ variable' = scheduleVariable) ∧
        c.dagFile ≠ d.dagFile ∧
          Files.Path.parse (settings.projectDir c.name) ≠
            Files.Path.parse (settings.projectDir d.name) := by
  have hc := (Store.nameProblem?_eq_none_iff_usable c.name).mp
    (Payload.wellFormed_of_validate hp).name_usable
  have hd := (Store.nameProblem?_eq_none_iff_usable d.name).mp
    (Payload.wellFormed_of_validate hq).name_usable
  refine ⟨c.dagId_eq_iff d, openDag_mem_statements_iff settings c, ?_, ?_⟩
  · intro h
    rw [Config.dagFile, Config.dagFile, String.append_left_inj, String.append_right_inj] at h
    exact hne h
  · rw [Store.parse_projectDir settings hc.toIsEntryName,
      Store.parse_projectDir settings hd.toIsEntryName]
    intro h
    have hparts := congrArg Files.Path.parts h
    rw [Store.projectFolder, Store.projectFolder, Files.Path.child, Files.Path.child,
      List.append_cancel_left_eq, List.cons.injEq, Files.Part.entry.injEq] at hparts
    exact hne hparts.1

/-- Two names that differ in a letter have DAGs of different names. -/
theorem dagId_ne_called :
    (called "Sales-EU 1").validate = .ok (called "Sales-EU 1").toConfig ∧
      (called "sales_us-1").validate = .ok (called "sales_us-1").toConfig ∧
        (called "Sales-EU 1").toConfig.name ≠ (called "sales_us-1").toConfig.name ∧
          (called "Sales-EU 1").toConfig.dagId ≠ (called "sales_us-1").toConfig.dagId := by
  have hp : (called "Sales-EU 1").validate = .ok (called "Sales-EU 1").toConfig := by rfl
  have hq : (called "sales_us-1").validate = .ok (called "sales_us-1").toConfig := by rfl
  have hne : (called "Sales-EU 1").toConfig.name ≠ (called "sales_us-1").toConfig.name := by decide
  refine ⟨hp, hq, hne, ?_⟩
  exact mt (dagId_eq_iff_of_validate hp hq hne {}).1.mp (by decide)

/-- Two validated projects with different names may have DAGs with the same identifier. -/
theorem not_forall_dagId_ne :
    ¬∀ (p q : Payload) (c d : Config), p.validate = .ok c → q.validate = .ok d → c.name ≠ d.name →
      c.dagId ≠ d.dagId := by
  intro h
  have hne : (called "a-b").toConfig.name ≠ (called "a_b").toConfig.name := by decide
  refine h (called "a-b") (called "a_b") _ _ (by rfl) (by rfl) hne ?_
  exact (Config.dagId_eq_iff _ _).mpr (by decide)

end Dag

end DagScaffold
