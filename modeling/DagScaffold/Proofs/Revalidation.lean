import Mathlib
import DagScaffold.Proofs.Validity

/-!
# Validating a validated project again

The payload of a well-formed project is accepted and gives the same project, but for one rule: a
robin code may be blank once it has been cut to its length, and then nothing but the code is
refused.

* `Payload.Task.toTask?_ofTask`, `Payload.toConfig_ofConfig` : nothing is changed by a second
  validation;
* `Payload.validate_ofConfig_of_validate` : when it succeeds.
-/

namespace DagScaffold

open DagScaffold.Project

/-! ## Spellings are read back -/

/-- A priority is found under its name. -/
theorem Priority.ofName?_name (x : Priority) : Priority.ofName? x.name = some x := by
  cases x <;> decide

/-- A stage is found under its name. -/
theorem Stage.ofName?_name (x : Stage) : Stage.ofName? x.name = some x := by
  cases x <;> decide

/-- A kind of task is found under its name. -/
theorem TaskKind.ofName?_name (x : TaskKind) : TaskKind.ofName? x.name = some x := by
  cases x <;> decide

/-- What is found under a text in a table of spellings is spelled so. -/
theorem name_of_lookup {α : Type} {name : α → String} {all : List α} {s : String} {a : α}
    (h : (all.map fun a => (name a, a)).lookup s = some a) : name a = s := by
  induction all with
  | nil => exact absurd h (by simp)
  | cons b all ih =>
      rw [List.map_cons, List.lookup_cons] at h
      split at h
      · rename_i hs
        rw [← Option.some.inj h]
        exact (beq_iff_eq.mp hs).symm
      · exact ih h

theorem Priority.ofName?_eq_some_iff (s : String) (x : Priority) :
    Priority.ofName? s = some x ↔ x.name = s :=
  ⟨name_of_lookup, fun h => h ▸ Priority.ofName?_name x⟩

theorem Stage.ofName?_eq_some_iff (s : String) (x : Stage) :
    Stage.ofName? s = some x ↔ x.name = s :=
  ⟨name_of_lookup, fun h => h ▸ Stage.ofName?_name x⟩

theorem TaskKind.ofName?_eq_some_iff (s : String) (x : TaskKind) :
    TaskKind.ofName? s = some x ↔ x.name = s :=
  ⟨name_of_lookup, fun h => h ▸ TaskKind.ofName?_name x⟩

/-- A number stands for the number of slots that it counts. -/
theorem PoolSlots.ofInt?_eq_some_iff (n : Int) (x : PoolSlots) :
    PoolSlots.ofInt? n = some x ↔ (x.count : Int) = n := by
  obtain ⟨count, hone, hfive⟩ := x
  unfold PoolSlots.ofInt?
  by_cases hrange : 1 ≤ n.toNat ∧ n.toNat ≤ 5
  · simp only [dif_pos hrange, Option.some.injEq, PoolSlots.mk.injEq]
    omega
  · simp only [dif_neg hrange, reduceCtorEq, false_iff]
    omega

/-- A number of slots is from one to five. -/
theorem PoolSlots.ofInt?_isSome_iff (n : Int) :
    (PoolSlots.ofInt? n).isSome = true ↔ 1 ≤ n ∧ n ≤ 5 := by
  unfold PoolSlots.ofInt?
  by_cases hrange : 1 ≤ n.toNat ∧ n.toNat ≤ 5
  · simp only [dif_pos hrange, Option.isSome_some, true_iff]
    omega
  · simp only [dif_neg hrange, Option.isSome_none, Bool.false_eq_true, false_iff]
    omega

/-- A number of slots is found as an integer of 64 bits. -/
theorem PoolSlots.ofInt?_count (x : PoolSlots) :
    PoolSlots.ofInt? (Int64.ofNat x.count).toInt = some x := by
  obtain ⟨count, hone, hfive⟩ := x
  interval_cases count <;> rfl

/-! ## Blank robin codes -/

/-- A robin code keeps blanks only when its first characters are blank. -/
theorem Project.isBlankText_normalizeRobin (robin : String) :
    Text.isBlankText (normalizeRobin robin) = (robin.toList.take robinLength).all Text.isBlank := by
  rw [Text.isBlankText, normalizeRobin, Text.toLower, String.toList_ofList, String.toList_ofList,
    Text.all_isBlank_take_lowerFrom]

/-! ## The payload of a validated project -/

namespace Payload

/-- A task without an empty pool is what its payload stands for. -/
theorem Task.toTask?_ofTask {t : DagScaffold.Task} (h : t.selectedPool ≠ some "") :
    (Task.ofTask t).toTask? = some t := by
  rw [Task.toTask?_eq_some_iff]
  refine ⟨Priority.ofName?_name _, TaskKind.ofName?_name _, PoolSlots.ofInt?_count _, rfl, rfl, rfl,
    rfl, ?_⟩
  rw [Task.ofTask]
  cases hpool : t.selectedPool with
  | none => rfl
  | some pool =>
      have hne : pool ≠ "" := by
        rintro rfl
        exact h hpool
      simp [Option.filter, hne]

/-- The payload of a task of a valid project breaks no rule of its own. -/
theorem Task.sound_ofTask {c : Config} (h : c.WellFormed) {t : DagScaffold.Task}
    (ht : t ∈ c.tasks) : (Task.ofTask t).Sound where
  fields := by rw [Task.toTask?_ofTask (h.pool_nonempty t ht), Option.isSome_some]
  named := h.task_named t ht
  usable := h.symbol_usable t ht

/-- The payload of a step of a valid project breaks no rule of its own. -/
theorem Step.sound_ofStep {c : Config} (h : c.WellFormed) {s : DagScaffold.Step}
    (hs : s ∈ c.pipeline) : (Step.ofStep s).Sound := by
  refine ⟨?_, fun t ht => ?_⟩
  · rw [Step.ofStep, Ne, List.map_eq_nil_iff]
    exact h.step_nonempty s hs
  · obtain ⟨task, htask, rfl⟩ := List.mem_map.mp ht
    exact Task.sound_ofTask h (Config.mem_tasks hs htask)

/-- A step of a valid project is what its payload stands for. -/
theorem Step.toStep_ofStep {c : Config} (h : c.WellFormed) {s : DagScaffold.Step}
    (hs : s ∈ c.pipeline) : (Step.ofStep s).toStep = s := by
  have hfilter : (s.tasks.map Task.ofTask).filterMap Task.toTask? = s.tasks := by
    rw [List.filterMap_map]
    conv_rhs => rw [← List.filterMap_some (l := s.tasks)]
    exact List.filterMap_congr fun t ht =>
      Task.toTask?_ofTask (h.pool_nonempty t (Config.mem_tasks hs ht))
  rw [Step.ofStep, Step.toStep, hfilter]

/-- The payload of a project asks for the symbols of the project. -/
theorem symbolsOf_ofConfig (c : Config) : symbolsOf (ofConfig c).pipeline = c.symbols := by
  rw [symbolsOf, Config.symbols, Config.tasks, List.map_flatMap, ofConfig, List.flatMap_map]
  refine List.flatMap_congr fun s _ => ?_
  rw [Step.ofStep, List.map_map]
  rfl

/-- A well-formed project is what its payload describes. -/
theorem toConfig_ofConfig {c : Config} (h : c.WellFormed) : (ofConfig c).toConfig = c := by
  have hpipeline : (checkSteps [] 0 (c.pipeline.map Step.ofStep)).result = c.pipeline := by
    rw [checkSteps_result, List.map_map]
    conv_rhs => rw [← List.map_id c.pipeline]
    exact List.map_congr_left fun s hs => Step.toStep_ofStep h hs
  have hpools : firstMentions [] c.pools = c.pools :=
    firstMentions_eq_self h.pools_distinct fun _ _ => List.not_mem_nil
  rw [toConfig, ofConfig]
  simp only [h.name_normal, h.robin_normal, Stage.ofName?_name, hpipeline, hpools, Option.getD_some]

/-- The payload of a well-formed project breaks no rule but the one for a blank robin code. -/
theorem violations_ofConfig {c : Config} (h : c.WellFormed) :
    (ofConfig c).violations = if Text.isBlankText c.robin then [.robinBlank] else [] := by
  have hname : checkName c.name = [] := by
    rw [checkName_eq_nil_iff, h.name_normal]
    exact ⟨isBlankText_eq_false_of_nameProblem? h.name_usable, h.name_usable⟩
  have hpipeline : (c.pipeline.map Step.ofStep).isEmpty = false := by
    rw [List.isEmpty_eq_false_iff, Ne, List.map_eq_nil_iff]
    exact h.pipeline_nonempty
  have hsteps : (checkSteps [] 0 (ofConfig c).pipeline).violations = [] := by
    rw [checkSteps_violations_eq_nil_iff, symbolsOf_ofConfig]
    refine ⟨fun s hs => ?_, h.symbols_distinct, fun _ _ => List.not_mem_nil⟩
    obtain ⟨step, hstep, rfl⟩ := List.mem_map.mp hs
    exact Step.sound_ofStep h hstep
  rw [violations, hsteps, checkHead, ofConfig]
  simp only [hname, hpipeline, Stage.ofName?_name, Option.isSome_some, if_true, List.nil_append,
    List.append_nil, Bool.false_eq_true, if_false]

/-- A validated project is accepted again as the same project unless the first four characters of
the robin code that it was made from are blank: then the code, which was not blank as it was given,
is refused and nothing else is. -/
theorem validate_ofConfig_of_validate {p : Payload} {c : Config} (h : p.validate = .ok c) :
    (ofConfig c).validate =
      if (p.robin.toList.take robinLength).all Text.isBlank then .error [.robinBlank]
      else .ok c := by
  have hwell := wellFormed_of_validate h
  obtain ⟨-, rfl⟩ := (validate_eq_ok_iff p c).mp h
  have hrobin : Text.isBlankText p.toConfig.robin =
      (p.robin.toList.take robinLength).all Text.isBlank :=
    isBlankText_normalizeRobin p.robin
  rw [validate, violations_ofConfig hwell, toConfig_ofConfig hwell, hrobin]
  split_ifs <;> rfl

/-- A payload with a name that is not in normal form, a pool that is mentioned twice and a task that
asks for the pool without a name. -/
def unnormalized : Payload where
  name := "My Project"
  robin := "RB AX"
  pipeline := [{ id := "s1", tasks := [{ id := "t1", name := "load a", selectedPool := some "" }] }]
  pools := ["b", "a", "b"]

/-- A payload that is not in normal form is validated, and so is the payload of the outcome, with
the same one. -/
theorem validate_ofConfig_unnormalized :
    unnormalized.validate = .ok unnormalized.toConfig ∧
      (ofConfig unnormalized.toConfig).validate = .ok unnormalized.toConfig := by
  have h : unnormalized.validate = .ok unnormalized.toConfig := by rfl
  refine ⟨h, ?_⟩
  rw [validate_ofConfig_of_validate h]
  rfl

/-- A payload with a robin code that opens with four blanks. -/
def blankRobin : Payload where
  name := "demo"
  robin := "    abcd"
  pipeline := [{ id := "s1", tasks := [{ id := "t1", name := "extract" }] }]

/-- Validation accepts a payload whose validated form it refuses. -/
theorem not_forall_validate_ofConfig :
    ¬∀ (p : Payload) (c : Config), p.validate = .ok c → (ofConfig c).validate = .ok c := by
  intro h
  have hagain := h blankRobin blankRobin.toConfig (by rfl)
  have hrefused : (ofConfig blankRobin.toConfig).validate = .error [.robinBlank] := by rfl
  rw [hrefused] at hagain
  cases hagain

end Payload

end DagScaffold
