import Mathlib
import DagScaffold.Proofs.Revalidation

/-!
# What a validated project keeps

A project that comes out of validation has the steps and the tasks of its payload, each in its place
with what the caller sent, and all that its generators rely on: names and symbols of plain
characters, and no symbol twice.

* `Payload.Keeps` : a project with the contents of a payload;
* `Config.Plain` : the names and symbols that generated text can hold;
* `Payload.keeps_and_plain_of_validate` : validation gives both.
-/

namespace DagScaffold

open DagScaffold.Project

/-! ## Tasks and steps -/

namespace Payload

/-- What a validated task keeps of the task of its payload. -/
structure Task.Keeps (t : Task) (task : DagScaffold.Task) : Prop where
  id : task.id = t.id
  name : task.name = t.name
  imports : task.imports = t.imports
  code : task.code = t.code
  priority : task.priority.name = t.priority
  kind : task.kind.name = t.kind
  poolSlots : (task.poolSlots.count : Int) = t.poolSlots.toInt
  /-- A pool without a name counts as none. -/
  selectedPool : task.selectedPool = if t.selectedPool = some "" then none else t.selectedPool

/-- What a validated step keeps of the step of its payload: its tasks stand in their places. -/
structure Step.Keeps (s : Step) (step : DagScaffold.Step) : Prop where
  id : step.id = s.id
  nonempty : step.tasks ≠ []
  tasks : List.Forall₂ Task.Keeps s.tasks step.tasks

/-- A validated task keeps what its payload says. -/
theorem Task.keeps_of_toTask? {t : Task} {task : DagScaffold.Task} (h : t.toTask? = some task) :
    t.Keeps task := by
  obtain ⟨hpriority, hkind, hslots, hid, hname, himports, hcode, hpool⟩ :=
    (t.toTask?_eq_some_iff task).mp h
  exact {
    id := hid
    name := hname
    imports := himports
    code := hcode
    priority := (Priority.ofName?_eq_some_iff _ _).mp hpriority
    kind := (TaskKind.ofName?_eq_some_iff _ _).mp hkind
    poolSlots := (PoolSlots.ofInt?_eq_some_iff _ _).mp hslots
    selectedPool := by
      rw [hpool]
      cases t.selectedPool with
      | none => rfl
      | some pool => by_cases hempty : pool = "" <;> simp [hempty] }

/-- No task is lost when all of them are sound. -/
theorem forall₂_toTask? {ts : List Task} (h : ∀ t ∈ ts, t.Sound) :
    List.Forall₂ Task.Keeps ts (ts.filterMap Task.toTask?) := by
  induction ts with
  | nil => exact List.Forall₂.nil
  | cons t ts ih =>
      obtain ⟨ht, hts⟩ := List.forall_mem_cons.mp h
      obtain ⟨task, htask⟩ := Option.isSome_iff_exists.mp ht.fields
      rw [List.filterMap_cons_some htask]
      exact List.Forall₂.cons (Task.keeps_of_toTask? htask) (ih hts)

/-- A sound step keeps what its payload says. -/
theorem Step.keeps_toStep {s : Step} (h : s.Sound) : s.Keeps s.toStep where
  id := rfl
  nonempty := tasks_toStep_ne_nil h
  tasks := forall₂_toTask? h.2

/-! ## Pools -/

/-- The first mentions stand in the order in which the texts are first mentioned. -/
theorem pairwise_firstMentions (seen ss : List String) :
    (firstMentions seen ss).Pairwise fun a b => ss.idxOf a < ss.idxOf b := by
  induction ss generalizing seen with
  | nil => exact List.Pairwise.nil
  | cons x ss ih =>
      -- a text other than the first one is found one place further on
      have hnext {a b : String} (ha : a ≠ x) (hb : b ≠ x) (hlt : ss.idxOf a < ss.idxOf b) :
          (x :: ss).idxOf a < (x :: ss).idxOf b := by
        rw [List.idxOf_cons_ne ss ha.symm, List.idxOf_cons_ne ss hb.symm]
        exact Nat.succ_lt_succ hlt
      have hrest {seen' : List String} (hx : x ∈ seen') :
          (firstMentions seen' ss).Pairwise fun a b => (x :: ss).idxOf a < (x :: ss).idxOf b := by
        have hne : ∀ a ∈ firstMentions seen' ss, a ≠ x := by
          rintro a ha rfl
          exact (mem_firstMentions.mp ha).2 hx
        exact (ih seen').imp_of_mem fun ha hb hlt => hnext (hne _ ha) (hne _ hb) hlt
      unfold firstMentions
      split_ifs with hx
      · exact hrest hx
      · refine List.Pairwise.cons ?_ (hrest List.mem_cons_self)
        intro b hb
        have hne : x ≠ b := by
          rintro rfl
          exact (mem_firstMentions.mp hb).2 List.mem_cons_self
        rw [List.idxOf_cons_self, List.idxOf_cons_ne ss hne]
        exact Nat.succ_pos _

end Payload

/-! ## Plain names -/

/-- Whether a text is a letter of ASCII or an underscore, and then such characters and digits. -/
def Symbol.IsIdentifier (symbol : String) : Prop :=
  ∃ c cs, symbol.toList = c :: cs ∧ (c.isAlpha = true ∨ c = '_') ∧
    ∀ d ∈ cs, d.isAlpha = true ∨ d.isDigit = true ∨ d = '_'

/-- A project whose names and symbols generated text can hold. -/
structure Config.Plain (c : Config) : Prop where
  symbols_distinct : c.symbols.Nodup
  symbol_identifier : ∀ symbol ∈ c.symbols, Symbol.IsIdentifier symbol
  symbol_free : ∀ symbol ∈ c.symbols, symbol ∉ Symbol.keywords ∧ symbol ∉ Symbol.reserved
  name_nonempty : c.name ≠ ""
  name_chars : ∀ x ∈ c.name.toList, x.isLower = true ∨ x.isDigit = true ∨ x = '_' ∨ x = '-'
  robin_length : 1 ≤ c.robin.length ∧ c.robin.length ≤ 4

theorem Symbol.isIdentifier_of_isAllowed {symbol : String} (hnonempty : symbol ≠ "")
    (hdigit : symbol.toList.head?.any Char.isDigit = false)
    (hallowed : ∀ d ∈ symbol.toList, isAllowed d = true) : IsIdentifier symbol := by
  have hchars : ∀ d ∈ symbol.toList, d.isAlpha = true ∨ d.isDigit = true ∨ d = '_' := by
    intro d hd
    simpa [isAllowed, Char.isAlphanum, or_assoc] using hallowed d hd
  cases hlist : symbol.toList with
  | nil => exact absurd (String.toList_eq_nil_iff.mp hlist) hnonempty
  | cons c cs =>
      rw [hlist] at hchars hdigit
      obtain ⟨hc, hcs⟩ := List.forall_mem_cons.mp hchars
      refine ⟨c, cs, hlist, ?_, hcs⟩
      rw [List.head?_cons, Option.any_some] at hdigit
      rcases hc with hc | hc | hc
      · exact Or.inl hc
      · rw [hdigit] at hc
        cases hc
      · exact Or.inr hc

/-- The symbol of a name without a problem is an identifier. -/
theorem Symbol.isIdentifier_ofName {name : String}
    (h : Symbol.problem? (Symbol.ofName name) = none) :
    Symbol.IsIdentifier (Symbol.ofName name) := by
  obtain ⟨hnonempty, hdigit, -⟩ := (Symbol.problem?_eq_none_iff _).mp h
  exact isIdentifier_of_isAllowed hnonempty hdigit fun _ => Symbol.isAllowed_of_mem_ofName

/-- A character of names that is its own lower case form is no capital. -/
theorem Project.isLower_of_isNameChar {c : Char} (h : isNameChar c = true)
    (hlower : Text.IsLower c) :
    c.isLower = true ∨ c.isDigit = true ∨ c = '_' ∨ c = '-' := by
  have hupper : c.isUpper = false := Text.isUpper_eq_false_of_isLower hlower
  simpa [isNameChar, Char.isAlphanum, Char.isAlpha, hupper, or_assoc] using h

namespace Config

/-- A valid project is plain. -/
theorem WellFormed.plain {c : Config} (h : c.WellFormed) : c.Plain := by
  have husable : ∀ symbol ∈ c.symbols, ∃ name, symbol = Symbol.ofName name ∧
      Symbol.problem? symbol = none := by
    intro symbol hsymbol
    obtain ⟨t, ht, rfl⟩ := List.mem_map.mp hsymbol
    exact ⟨t.name, rfl, h.symbol_usable t ht⟩
  obtain ⟨hnonempty, hchars⟩ := (nameProblem?_eq_none_iff c.name).mp h.name_usable
  exact {
    symbols_distinct := h.symbols_distinct
    symbol_identifier := by
      intro symbol hsymbol
      obtain ⟨name, rfl, hproblem⟩ := husable symbol hsymbol
      exact Symbol.isIdentifier_ofName hproblem
    symbol_free := by
      intro symbol hsymbol
      obtain ⟨-, -, hproblem⟩ := husable symbol hsymbol
      exact ((Symbol.problem?_eq_none_iff symbol).mp hproblem).2.2
    name_nonempty := hnonempty
    name_chars := by
      intro x hx
      have hlower : Text.IsLower x := by
        rw [← h.name_normal] at hx
        exact Text.isLower_of_mem_toLower hx
      exact isLower_of_isNameChar (hchars x hx) hlower
    robin_length := by
      constructor
      · have hne : c.robin.toList ≠ [] := fun hnil =>
          h.robin_nonempty (String.toList_eq_nil_iff.mp hnil)
        rw [← String.length_toList]
        exact List.length_pos_of_ne_nil hne
      · rw [← h.robin_normal, normalizeRobin, String.length_ofList]
        exact List.length_take_le _ _ }

end Config

/-! ## Payloads -/

namespace Payload

/-- A project with the contents of a payload. Steps and tasks stand in their places, and the pools
in the order of their first mention. -/
structure Keeps (p : Payload) (c : Config) : Prop where
  pipeline : List.Forall₂ Step.Keeps p.pipeline c.pipeline
  stage : c.stage.name = p.stage
  pools_mem : ∀ pool, pool ∈ c.pools ↔ pool ∈ p.pools
  pools_order : c.pools.Pairwise fun a b => p.pools.idxOf a < p.pools.idxOf b
  /-- All other fields but the name and the robin code are those of the payload. -/
  others : c = {
    name := c.name, robin := c.robin, stage := c.stage, pipeline := c.pipeline, pools := c.pools
    gitRemote := p.gitRemote, owner := p.owner, dataDomain := p.dataDomain
    useConda := p.useConda, condaEnv := p.condaEnv, useVertica := p.useVertica, silot := p.silot
    useInput := p.useInput, inputPath := p.inputPath
    useOutput := p.useOutput, outputPath := p.outputPath
    useNas := p.useNas, useGpu := p.useGpu, cron := p.cron, bundleBase := p.bundleBase
    prepareTests := p.prepareTests }

/-- A project that validation gives holds the contents of the payload, and its names and symbols are
plain. -/
theorem keeps_and_plain_of_validate {p : Payload} {c : Config} (h : p.validate = .ok c) :
    p.Keeps c ∧ c.Plain := by
  refine ⟨?_, (wellFormed_of_validate h).plain⟩
  obtain ⟨hviolations, rfl⟩ := (validate_eq_ok_iff p c).mp h
  obtain ⟨hhead, hsteps, -⟩ := (violations_eq_nil_iff p).mp hviolations
  obtain ⟨-, -, hstage, -⟩ := (checkHead_eq_nil_iff p).mp hhead
  exact {
    pipeline := by
      rw [pipeline_toConfig, List.forall₂_map_right_iff, List.forall₂_same]
      exact fun s hs => Step.keeps_toStep (hsteps s hs)
    stage := by
      obtain ⟨stage, hsome⟩ := Option.isSome_iff_exists.mp hstage
      have hgiven : p.toConfig.stage = stage := by
        rw [toConfig, hsome, Option.getD_some]
      rw [hgiven]
      exact (Stage.ofName?_eq_some_iff _ _).mp hsome
    pools_mem := by
      intro pool
      show pool ∈ firstMentions [] p.pools ↔ pool ∈ p.pools
      rw [mem_firstMentions, and_iff_left List.not_mem_nil]
    pools_order := pairwise_firstMentions [] p.pools
    others := rfl }

/-- Capital letters, spaces and pools that are named twice are put into their normal form. -/
theorem keeps_and_plain_unnormalized :
    unnormalized.validate = .ok unnormalized.toConfig ∧
      unnormalized.Keeps unnormalized.toConfig ∧ unnormalized.toConfig.Plain ∧
        unnormalized.toConfig.pools = ["b", "a"] ∧ unnormalized.toConfig.symbols = ["load_a"] := by
  have h : unnormalized.validate = .ok unnormalized.toConfig := by rfl
  obtain ⟨hkeeps, hplain⟩ := keeps_and_plain_of_validate h
  exact ⟨h, hkeeps, hplain, by rfl, by rfl⟩

end Payload

end DagScaffold
