import Mathlib
import DagScaffold.Project.Validation
import DagScaffold.Proofs.Naming

/-!
# What validation accepts

Validation goes through the pipeline with the claims of the tasks before. It finds no broken rule
exactly when every task is sound by itself and no two tasks ask for the same symbol, and then the
project that it gives is well formed.

* `Payload.Task.Sound`, `Config.WellFormed` : tasks and projects that keep all rules;
* `Payload.checkSteps_violations_eq_nil_iff` : pipelines without broken rules;
* `Payload.wellFormed_of_validate` : validated projects are well formed.
-/

namespace DagScaffold

open DagScaffold.Project

/-! ## Tasks -/

namespace Payload

/-- The symbol that a task asks for. -/
def Task.symbol (t : Task) : String :=
  Symbol.ofName t.name

/-- A task that breaks no rule of its own: its fields have a meaning, and its name has a usable
symbol. -/
structure Task.Sound (t : Task) : Prop where
  fields : t.toTask?.isSome = true
  named : Text.isBlankText t.name = false
  usable : Symbol.problem? t.symbol = none

/-- A task has a validated form when its priority, its kind and its number of slots have one. -/
theorem Task.toTask?_isSome_iff (t : Task) :
    t.toTask?.isSome = true ↔ (Priority.ofName? t.priority).isSome = true ∧
      (TaskKind.ofName? t.kind).isSome = true ∧
        (PoolSlots.ofInt? t.poolSlots.toInt).isSome = true := by
  unfold Task.toTask?
  cases Priority.ofName? t.priority <;> cases TaskKind.ofName? t.kind <;>
    cases PoolSlots.ofInt? t.poolSlots.toInt <;> simp

/-- A validated task keeps the fields of its payload. -/
theorem Task.toTask?_eq_some_iff (t : Task) (task : DagScaffold.Task) :
    t.toTask? = some task ↔ Priority.ofName? t.priority = some task.priority ∧
      TaskKind.ofName? t.kind = some task.kind ∧
        PoolSlots.ofInt? t.poolSlots.toInt = some task.poolSlots ∧ task.id = t.id ∧
          task.name = t.name ∧ task.imports = t.imports ∧ task.code = t.code ∧
            task.selectedPool = t.selectedPool.filter (· ≠ "") := by
  unfold Task.toTask?
  obtain ⟨id, name, imports, code, priority, poolSlots, kind, selectedPool⟩ := task
  cases Priority.ofName? t.priority <;> cases TaskKind.ofName? t.kind <;>
    cases PoolSlots.ofInt? t.poolSlots.toInt <;> simp
  tauto

/-- A task has no broken rule about its fields when it has a validated form. -/
theorem checkTaskFields_eq_nil_iff (place : TaskPlace) (t : Task) :
    checkTaskFields place t = [] ↔ t.toTask?.isSome = true := by
  rw [Task.toTask?_isSome_iff, checkTaskFields, List.append_eq_nil_iff, List.append_eq_nil_iff,
    and_assoc]
  simp only [ite_eq_left_iff, List.cons_ne_nil, imp_false, Bool.not_eq_true, Bool.not_eq_false]

/-- A task lays a claim when its name has a usable symbol that no task before has claimed. -/
theorem checkTaskName_eq_ok_iff (claims : List Claim) (place : TaskPlace) (name : String)
    (claim : Claim) :
    checkTaskName claims place name = .ok claim ↔ Text.isBlankText name = false ∧
      Symbol.problem? (Symbol.ofName name) = none ∧
        Symbol.ofName name ∉ claims.map Claim.symbol ∧
          claim = ⟨Symbol.ofName name, name, place⟩ := by
  unfold checkTaskName
  cases hblank : Text.isBlankText name with
  | true => simp
  | false =>
      cases hproblem : Symbol.problem? (Symbol.ofName name) with
      | some problem => simp [hproblem]
      | none =>
          cases hfind : claims.find? (·.symbol = Symbol.ofName name) with
          | some first =>
              have hmem := List.mem_of_find?_eq_some hfind
              have hsymbol : first.symbol = Symbol.ofName name := by
                simpa using List.find?_some hfind
              have htaken : Symbol.ofName name ∈ claims.map Claim.symbol :=
                List.mem_map.mpr ⟨first, hmem, hsymbol⟩
              simp [hproblem, hfind, htaken]
          | none =>
              have hfree : Symbol.ofName name ∉ claims.map Claim.symbol := by
                intro htaken
                obtain ⟨first, hmem, hsymbol⟩ := List.mem_map.mp htaken
                simpa [hsymbol] using List.find?_eq_none.mp hfind first hmem
              simp only [hproblem, hfind, hfree, Bool.false_eq_true, if_false, Except.ok.injEq,
                not_false_eq_true, true_and]
              exact eq_comm

/-- A task breaks no rule when it is sound and its symbol is still free. -/
theorem checkTask_violations_eq_nil_iff (claims : List Claim) (place : TaskPlace) (t : Task) :
    (checkTask claims place t).violations = [] ↔
      t.Sound ∧ t.symbol ∉ claims.map Claim.symbol := by
  unfold checkTask
  cases hname : checkTaskName claims place t.name with
  | error v =>
      simp only [List.append_eq_nil_iff, List.cons_ne_nil, and_false, false_iff]
      rintro ⟨hsound, hfree⟩
      have hok := (checkTaskName_eq_ok_iff claims place t.name _).mpr
        ⟨hsound.named, hsound.usable, hfree, rfl⟩
      rw [hname] at hok
      cases hok
  | ok claim =>
      obtain ⟨hnamed, husable, hfree, -⟩ := (checkTaskName_eq_ok_iff _ _ _ _).mp hname
      rw [checkTaskFields_eq_nil_iff]
      exact ⟨fun hfields => ⟨⟨hfields, hnamed, husable⟩, hfree⟩, fun h => h.1.fields⟩

/-- A task without broken rules claims its symbol. -/
theorem checkTask_claims {claims : List Claim} {place : TaskPlace} {t : Task}
    (h : (checkTask claims place t).violations = []) :
    (checkTask claims place t).claims.map Claim.symbol = claims.map Claim.symbol ++ [t.symbol] := by
  obtain ⟨hsound, hfree⟩ := (checkTask_violations_eq_nil_iff claims place t).mp h
  have hok := (checkTaskName_eq_ok_iff claims place t.name _).mpr
    ⟨hsound.named, hsound.usable, hfree, rfl⟩
  rw [checkTask, hok, List.map_append]
  rfl

/-- What a check makes of a task does not depend on the rules that it breaks. -/
theorem checkTask_result (claims : List Claim) (place : TaskPlace) (t : Task) :
    (checkTask claims place t).result = t.toTask? := by
  unfold checkTask
  cases checkTaskName claims place t.name <;> rfl

/-! ## Steps -/

/-- The symbols of a pipeline that are new after some others: they are distinct, and none is among
those. -/
def Fresh (taken symbols : List String) : Prop :=
  symbols.Nodup ∧ ∀ symbol ∈ symbols, symbol ∉ taken

/-- Symbols are new together when the later ones are new after the earlier ones. -/
theorem fresh_append_iff (taken front back : List String) :
    Fresh taken (front ++ back) ↔ Fresh taken front ∧ Fresh (taken ++ front) back := by
  simp only [Fresh, List.nodup_append, List.mem_append, not_or]
  constructor
  · rintro ⟨⟨hfront, hback, hapart⟩, hfree⟩
    exact ⟨⟨hfront, fun s hs => hfree s (Or.inl hs)⟩, hback,
      fun s hs => ⟨hfree s (Or.inr hs), fun hs' => hapart s hs' s hs rfl⟩⟩
  · rintro ⟨⟨hfront, hfree⟩, hback, hfree'⟩
    refine ⟨⟨hfront, hback, ?_⟩, ?_⟩
    · rintro s hs s' hs' rfl
      exact (hfree' s hs').2 hs
    · rintro s (hs | hs)
      · exact hfree s hs
      · exact (hfree' s hs).1

/-- One symbol is new when it is not among the others. -/
theorem fresh_singleton_iff (taken : List String) (symbol : String) :
    Fresh taken [symbol] ↔ symbol ∉ taken := by
  simp [Fresh]

/-- The tasks of a step break no rule when each is sound and their symbols are new. -/
theorem checkTasks_violations_eq_nil_iff (claims : List Claim) (i j : Nat) (ts : List Task) :
    (checkTasks claims i j ts).violations = [] ↔
      (∀ t ∈ ts, t.Sound) ∧ Fresh (claims.map Claim.symbol) (ts.map Task.symbol) := by
  induction ts generalizing claims j with
  | nil => simp [checkTasks, Fresh]
  | cons t ts ih =>
      have hsplit : (t :: ts).map Task.symbol = [t.symbol] ++ ts.map Task.symbol := rfl
      rw [checkTasks, List.append_eq_nil_iff, ih, hsplit, fresh_append_iff, fresh_singleton_iff,
        List.forall_mem_cons]
      constructor
      · rintro ⟨hhead, hsound, hfresh⟩
        -- the claims after a sound task are those before it and its own
        rw [checkTask_claims hhead] at hfresh
        obtain ⟨ht, hfree⟩ := (checkTask_violations_eq_nil_iff _ _ _).mp hhead
        exact ⟨⟨ht, hsound⟩, hfree, hfresh⟩
      · rintro ⟨⟨ht, hsound⟩, hfree, hfresh⟩
        have hhead := (checkTask_violations_eq_nil_iff claims ⟨i, j⟩ t).mpr ⟨ht, hfree⟩
        rw [checkTask_claims hhead]
        exact ⟨hhead, hsound, hfresh⟩

/-- Tasks without a broken rule claim their symbols, in their order. -/
theorem checkTasks_claims {claims : List Claim} {i j : Nat} {ts : List Task}
    (h : (checkTasks claims i j ts).violations = []) :
    (checkTasks claims i j ts).claims.map Claim.symbol =
      claims.map Claim.symbol ++ ts.map Task.symbol := by
  induction ts generalizing claims j with
  | nil => simp [checkTasks]
  | cons t ts ih =>
      rw [checkTasks, List.append_eq_nil_iff] at h
      rw [checkTasks, ih h.2, checkTask_claims h.1, List.append_assoc]
      rfl

/-- The check of the tasks of a step keeps those that have a validated form. -/
theorem checkTasks_result (claims : List Claim) (i j : Nat) (ts : List Task) :
    (checkTasks claims i j ts).result = ts.filterMap Task.toTask? := by
  induction ts generalizing claims j with
  | nil => rfl
  | cons t ts ih =>
      rw [checkTasks, ih, checkTask_result]
      cases ht : t.toTask? <;> simp [ht]

/-- The symbols that the tasks of a pipeline ask for, step by step. -/
def symbolsOf (ss : List Step) : List String :=
  ss.flatMap fun s => s.tasks.map Task.symbol

/-- A step that breaks no rule of its own: it has tasks, and all of them are sound. -/
def Step.Sound (s : Step) : Prop :=
  s.tasks ≠ [] ∧ ∀ t ∈ s.tasks, t.Sound

/-- A step breaks no rule when it is sound and its symbols are new. -/
theorem checkStep_violations_eq_nil_iff (claims : List Claim) (i : Nat) (s : Step) :
    (checkStep claims i s).violations = [] ↔
      s.Sound ∧ Fresh (claims.map Claim.symbol) (s.tasks.map Task.symbol) := by
  rw [checkStep, List.append_eq_nil_iff, checkTasks_violations_eq_nil_iff, Step.Sound, and_assoc]
  simp

/-- Steps break no rule when each is sound and their symbols are new. -/
theorem checkSteps_violations_eq_nil_iff (claims : List Claim) (i : Nat) (ss : List Step) :
    (checkSteps claims i ss).violations = [] ↔
      (∀ s ∈ ss, s.Sound) ∧ Fresh (claims.map Claim.symbol) (symbolsOf ss) := by
  induction ss generalizing claims i with
  | nil => simp [checkSteps, symbolsOf, Fresh]
  | cons s ss ih =>
      have hsplit : symbolsOf (s :: ss) = s.tasks.map Task.symbol ++ symbolsOf ss := rfl
      rw [checkSteps, List.append_eq_nil_iff, ih, hsplit, fresh_append_iff, List.forall_mem_cons]
      constructor
      · rintro ⟨hhead, hsound, hfresh⟩
        obtain ⟨hs, hfree⟩ := (checkStep_violations_eq_nil_iff _ _ _).mp hhead
        rw [checkStep, List.append_eq_nil_iff] at hhead
        rw [checkStep, checkTasks_claims hhead.2] at hfresh
        exact ⟨⟨hs, hsound⟩, hfree, hfresh⟩
      · rintro ⟨⟨hs, hsound⟩, hfree, hfresh⟩
        have hhead := (checkStep_violations_eq_nil_iff claims i s).mpr ⟨hs, hfree⟩
        have htasks := hhead
        rw [checkStep, List.append_eq_nil_iff] at htasks
        refine ⟨hhead, hsound, ?_⟩
        rw [checkStep, checkTasks_claims htasks.2]
        exact hfresh

/-- The validated step, less the tasks with a wrong field. -/
def Step.toStep (s : Step) : DagScaffold.Step :=
  ⟨s.id, s.tasks.filterMap Task.toTask?⟩

/-- The check of the steps makes of each what it is without the tasks with a wrong field. -/
theorem checkSteps_result (claims : List Claim) (i : Nat) (ss : List Step) :
    (checkSteps claims i ss).result = ss.map Step.toStep := by
  induction ss generalizing claims i with
  | nil => rfl
  | cons s ss ih =>
      rw [checkSteps, ih, checkStep, checkTasks_result]
      rfl

/-! ## Payloads -/

/-- A payload breaks no rule when its head breaks none, its steps are sound and no two of its tasks
ask for the same symbol. -/
theorem violations_eq_nil_iff (p : Payload) :
    p.violations = [] ↔
      p.checkHead = [] ∧ (∀ s ∈ p.pipeline, s.Sound) ∧ (symbolsOf p.pipeline).Nodup := by
  rw [violations, List.append_eq_nil_iff, checkSteps_violations_eq_nil_iff]
  simp [Fresh]

/-- The fields of a project break no rule when its name, its code and its stage are in order and it
has steps. -/
theorem checkHead_eq_nil_iff (p : Payload) :
    p.checkHead = [] ↔ checkName p.name = [] ∧ Text.isBlankText p.robin = false ∧
      (Stage.ofName? p.stage).isSome = true ∧ p.pipeline ≠ [] := by
  rw [checkHead, List.append_eq_nil_iff, List.append_eq_nil_iff, List.append_eq_nil_iff]
  simp only [ite_eq_left_iff, ite_eq_right_iff, List.cons_ne_nil, imp_false, Bool.not_eq_true,
    Bool.not_eq_false, List.isEmpty_eq_false_iff, and_assoc]

/-- The name of a project breaks no rule when it is not blank and its normal form has no problem. -/
theorem checkName_eq_nil_iff (name : String) :
    checkName name = [] ↔
      Text.isBlankText name = false ∧ nameProblem? (normalizeName name) = none := by
  unfold checkName
  cases Text.isBlankText name <;> cases nameProblem? (normalizeName name) <;> simp

/-- Validation gives a project exactly when no rule is broken. -/
theorem validate_eq_ok_iff (p : Payload) (c : Config) :
    p.validate = .ok c ↔ p.violations = [] ∧ c = p.toConfig := by
  unfold validate
  cases p.violations with
  | nil => simp [eq_comm]
  | cons v vs => simp

end Payload

/-! ## Validated projects -/

/-- A project that keeps all rules and is in normal form. -/
structure Config.WellFormed (c : Config) : Prop where
  name_usable : nameProblem? c.name = none
  name_normal : normalizeName c.name = c.name
  robin_nonempty : c.robin ≠ ""
  robin_normal : normalizeRobin c.robin = c.robin
  pipeline_nonempty : c.pipeline ≠ []
  step_nonempty : ∀ s ∈ c.pipeline, s.tasks ≠ []
  task_named : ∀ t ∈ c.tasks, Text.isBlankText t.name = false
  symbol_usable : ∀ t ∈ c.tasks, Symbol.problem? t.symbol = none
  pool_nonempty : ∀ t ∈ c.tasks, t.selectedPool ≠ some ""
  symbols_distinct : c.symbols.Nodup
  pools_distinct : c.pools.Nodup

theorem Config.mem_tasks {c : Config} {s : Step} {t : Task} (hs : s ∈ c.pipeline)
    (ht : t ∈ s.tasks) : t ∈ c.tasks :=
  List.mem_flatMap.mpr ⟨s, hs, ht⟩

/-- The symbols of a project are those of its steps, one step after the other. -/
theorem Config.symbols_eq_flatten (c : Config) :
    c.symbols = (c.pipeline.map Step.symbols).flatten := by
  rw [Config.symbols, Config.tasks, List.map_flatMap]
  rfl

/-- A valid project has tasks. -/
theorem Config.WellFormed.symbols_nonempty {c : Config} (h : c.WellFormed) : c.symbols ≠ [] := by
  obtain ⟨s, hs⟩ := List.exists_mem_of_ne_nil c.pipeline h.pipeline_nonempty
  obtain ⟨t, ht⟩ := List.exists_mem_of_ne_nil s.tasks (h.step_nonempty s hs)
  exact List.ne_nil_of_mem (List.mem_map_of_mem (Config.mem_tasks hs ht))

/-- No symbol of a valid project is reserved. -/
theorem Config.WellFormed.not_mem_reserved {c : Config} (h : c.WellFormed) {x : String}
    (hx : x ∈ c.symbols) : x ∉ Symbol.reserved := by
  obtain ⟨t, ht, rfl⟩ := List.mem_map.mp hx
  exact ((Symbol.problem?_eq_none_iff _).mp (h.symbol_usable t ht)).2.2.2

namespace Payload

/-- A validated task has the symbol of its payload. -/
theorem Task.symbol_of_toTask? {t : Task} {task : DagScaffold.Task} (h : t.toTask? = some task) :
    task.symbol = t.symbol := by
  obtain ⟨-, -, -, -, hname, -⟩ := (t.toTask?_eq_some_iff task).mp h
  rw [DagScaffold.Task.symbol, hname]
  rfl

/-- No validated task asks for a pool without a name. -/
theorem Task.selectedPool_of_toTask? {t : Task} {task : DagScaffold.Task}
    (h : t.toTask? = some task) : task.selectedPool ≠ some "" := by
  obtain ⟨-, -, -, -, -, -, -, hpool⟩ := (t.toTask?_eq_some_iff task).mp h
  rw [hpool]
  intro hempty
  simpa using (Option.filter_eq_some_iff.mp hempty).2

/-- Sound tasks keep their symbols in their places. -/
theorem symbols_toStep {s : Step} (h : ∀ t ∈ s.tasks, t.Sound) :
    s.toStep.symbols = s.tasks.map Task.symbol := by
  obtain ⟨id, tasks⟩ := s
  simp only [Step.toStep, DagScaffold.Step.symbols]
  induction tasks with
  | nil => rfl
  | cons t ts ih =>
      obtain ⟨ht, hts⟩ := List.forall_mem_cons.mp h
      obtain ⟨task, htask⟩ := Option.isSome_iff_exists.mp ht.fields
      rw [List.filterMap_cons_some htask, List.map_cons, List.map_cons, ih hts,
        Task.symbol_of_toTask? htask]

/-- A sound step keeps its tasks. -/
theorem tasks_toStep_ne_nil {s : Step} (h : s.Sound) : s.toStep.tasks ≠ [] := by
  intro hnil
  have hsymbols := symbols_toStep h.2
  rw [DagScaffold.Step.symbols, hnil] at hsymbols
  exact h.1 (List.map_eq_nil_iff.mp hsymbols.symm)

theorem pipeline_toConfig (p : Payload) : p.toConfig.pipeline = p.pipeline.map Step.toStep :=
  checkSteps_result [] 0 p.pipeline

/-- The tasks of a validated project come from those of its payload. -/
theorem exists_of_mem_tasks_toConfig {p : Payload} {task : DagScaffold.Task}
    (h : task ∈ p.toConfig.tasks) : ∃ s ∈ p.pipeline, ∃ t ∈ s.tasks, t.toTask? = some task := by
  rw [Config.tasks, pipeline_toConfig, List.mem_flatMap] at h
  obtain ⟨step, hstep, htask⟩ := h
  obtain ⟨s, hs, rfl⟩ := List.mem_map.mp hstep
  obtain ⟨t, ht, hsome⟩ := List.mem_filterMap.mp htask
  exact ⟨s, hs, t, ht, hsome⟩

/-- A project of sound steps has the symbols that their tasks ask for. -/
theorem symbols_toConfig {p : Payload} (h : ∀ s ∈ p.pipeline, s.Sound) :
    p.toConfig.symbols = symbolsOf p.pipeline := by
  rw [Config.symbols, Config.tasks, pipeline_toConfig, List.map_flatMap, List.flatMap_map,
    symbolsOf]
  exact List.flatMap_congr fun s hs => symbols_toStep (h s hs).2

/-! ## Pools -/

/-- The first mentions of some texts are those that were not seen before. -/
theorem mem_firstMentions {seen ss : List String} {s : String} :
    s ∈ firstMentions seen ss ↔ s ∈ ss ∧ s ∉ seen := by
  induction ss generalizing seen with
  | nil => simp [firstMentions]
  | cons a ss ih =>
      unfold firstMentions
      split_ifs with ha
      · rw [ih, List.mem_cons]
        constructor
        · exact fun h => ⟨Or.inr h.1, h.2⟩
        · rintro ⟨rfl | h, hs⟩
          · exact absurd ha hs
          · exact ⟨h, hs⟩
      · rw [List.mem_cons, ih, List.mem_cons, List.mem_cons, not_or]
        constructor
        · rintro (rfl | h)
          · exact ⟨Or.inl rfl, ha⟩
          · exact ⟨Or.inr h.1, h.2.2⟩
        · rintro ⟨rfl | h, hs⟩
          · exact Or.inl rfl
          · by_cases hsa : s = a
            · exact Or.inl hsa
            · exact Or.inr ⟨h, hsa, hs⟩

/-- No text has two first mentions. -/
theorem nodup_firstMentions (seen ss : List String) : (firstMentions seen ss).Nodup := by
  induction ss generalizing seen with
  | nil => simp [firstMentions]
  | cons a ss ih =>
      unfold firstMentions
      split_ifs
      · exact ih seen
      · rw [List.nodup_cons]
        refine ⟨fun h => ?_, ih (a :: seen)⟩
        exact (mem_firstMentions.mp h).2 List.mem_cons_self

/-- Texts without repetitions are all first mentions. -/
theorem firstMentions_eq_self {seen ss : List String} (hdistinct : ss.Nodup)
    (hseen : ∀ s ∈ ss, s ∉ seen) : firstMentions seen ss = ss := by
  induction ss generalizing seen with
  | nil => rfl
  | cons a ss ih =>
      obtain ⟨ha, hss⟩ := List.nodup_cons.mp hdistinct
      obtain ⟨hfree, hrest⟩ := List.forall_mem_cons.mp hseen
      rw [firstMentions, if_neg hfree, ih hss fun s hs => ?_]
      rw [List.mem_cons, not_or]
      exact ⟨ne_of_mem_of_not_mem hs ha, hrest s hs⟩

/-! ## The invariant -/

/-- Validation gives well-formed projects only. -/
theorem wellFormed_of_validate {p : Payload} {c : Config} (h : p.validate = .ok c) :
    c.WellFormed := by
  obtain ⟨hviolations, rfl⟩ := (validate_eq_ok_iff p c).mp h
  obtain ⟨hhead, hsteps, hdistinct⟩ := (violations_eq_nil_iff p).mp hviolations
  obtain ⟨hname, hrobin, -, hpipeline⟩ := (checkHead_eq_nil_iff p).mp hhead
  obtain ⟨-, hproblem⟩ := (checkName_eq_nil_iff p.name).mp hname
  -- each task of the project was made from a sound one
  have hsound : ∀ task ∈ p.toConfig.tasks, ∃ t : Task, t.Sound ∧ t.toTask? = some task := by
    intro task htask
    obtain ⟨s, hs, t, ht, hsome⟩ := exists_of_mem_tasks_toConfig htask
    exact ⟨t, (hsteps s hs).2 t ht, hsome⟩
  exact {
    name_usable := hproblem
    name_normal := normalizeName_normalizeName hproblem
    robin_nonempty := normalizeRobin_ne_empty hrobin
    robin_normal := normalizeRobin_normalizeRobin p.robin
    pipeline_nonempty := by
      rw [pipeline_toConfig]
      simpa using hpipeline
    step_nonempty := by
      rw [pipeline_toConfig]
      intro step hstep
      obtain ⟨s, hs, rfl⟩ := List.mem_map.mp hstep
      exact tasks_toStep_ne_nil (hsteps s hs)
    task_named := by
      intro task htask
      obtain ⟨t, ht, hsome⟩ := hsound task htask
      obtain ⟨-, -, -, -, hname, -⟩ := (t.toTask?_eq_some_iff task).mp hsome
      rw [hname]
      exact ht.named
    symbol_usable := by
      intro task htask
      obtain ⟨t, ht, hsome⟩ := hsound task htask
      rw [Task.symbol_of_toTask? hsome]
      exact ht.usable
    pool_nonempty := by
      intro task htask
      obtain ⟨t, -, hsome⟩ := hsound task htask
      exact Task.selectedPool_of_toTask? hsome
    symbols_distinct := by
      rw [symbols_toConfig hsteps]
      exact hdistinct
    pools_distinct := nodup_firstMentions [] p.pools }

/-- A project with a name and one task. -/
def called (name : String) : Payload where
  name := name
  robin := "rbta"
  pipeline := [{ id := "s1", tasks := [{ id := "t1", name := "extract" }] }]

end Payload

end DagScaffold
