import Mathlib
import DagScaffold.Proofs.Revalidation

/-!
# The report of validation

Whether a payload breaks a rule is a question about the payload alone: a rule about a task looks at
that task, and the one about symbols also at the tasks before it. Validation, which goes through the
pipeline once with the claims so far, reports exactly the rules that are broken, in the order of the
document.

* `Payload.Breaks` : whether a payload breaks a rule;
* `Violation.Precedes` : the order of the document;
* `Payload.mem_violations_iff`, `Payload.pairwise_violations` : what is reported, and in which
  order;
* `Payload.report_of_validate` : the report of validation.
-/

namespace DagScaffold

open DagScaffold.Project

/-! ## The order of the document -/

/-- A part of a task that has rules of its own. -/
inductive TaskPart where
  | priority
  | kind
  | slots
  | name
  deriving DecidableEq, Repr

namespace TaskPart

/-- The position of a part among the parts of a task. -/
def position : TaskPart → Nat
  | priority => 0
  | kind => 1
  | slots => 2
  | name => 3

/-- What the path of a part has after that of its task. -/
def suffix : TaskPart → String
  | priority => ".priority"
  | kind => ".type"
  | slots => ".pool_slots"
  | name => ".name"

/-- The parts of a task have fields of different names. -/
theorem suffix_injective : Function.Injective suffix := by
  intro a b h
  cases a <;> cases b <;> first | rfl | exact absurd h (by decide)

end TaskPart

/-- What a rule speaks of. -/
inductive Subject where
  | projectName
  | robin
  | stage
  | pipeline
  | tasks (step : Nat)
  | task (place : TaskPlace) (part : TaskPart)
  deriving DecidableEq, Repr

namespace Subject

/-- The position of a subject in a payload: those of a later one come after it, component by
component. -/
def position : Subject → List Nat
  | projectName => [0]
  | robin => [1]
  | stage => [2]
  | pipeline => [3]
  | tasks step => [4, step]
  | task place part => [4, place.step, place.task, part.position]

/-- The path of a subject in a report. -/
def field : Subject → String
  | projectName => "nomprojet"
  | robin => "coderobin"
  | stage => "stage"
  | pipeline => "pipeline"
  | tasks step => "pipeline[" ++ toString step ++ "].tasks"
  | task place part => place.path ++ part.suffix

end Subject

namespace Violation

/-- The subject of a broken rule. -/
def subject : Violation → Subject
  | projectName _ => .projectName
  | robinBlank => .robin
  | stageUnknown _ => .stage
  | noSteps => .pipeline
  | noTasks step => .tasks step
  | priorityUnknown place _ => .task place .priority
  | kindUnknown place _ => .task place .kind
  | slotsOutOfRange place _ => .task place .slots
  | taskNameBlank place => .task place .name
  | taskSymbol place _ => .task place .name
  | symbolTaken place _ _ => .task place .name

/-- The field of a violation is that of what it is about. -/
theorem field_subject (v : Violation) : v.subject.field = v.field := by
  cases v <;> rfl

/-- Whether the subject of one broken rule stands before that of another one. -/
def Precedes (v w : Violation) : Prop :=
  v.subject.position < w.subject.position

instance : Std.Irrefl Precedes where
  irrefl v := List.lt_irrefl v.subject.position

instance : Std.Antisymm Precedes where
  antisymm _ _ h h' := absurd h' (List.lt_asymm h)

end Violation

/-- Whether a place comes before another one in the pipeline. -/
def TaskPlace.Before (a b : TaskPlace) : Prop :=
  a.step < b.step ∨ (a.step = b.step ∧ a.task < b.task)

/-- Of two places only one is before the other. -/
theorem TaskPlace.Before.asymm {a b : TaskPlace} (h : a.Before b) : ¬b.Before a := by
  unfold TaskPlace.Before at *
  omega

/-! ## Paths -/

/-- An index in brackets is read back from what it opens. -/
theorem index_inj {a b : Nat} {x y : List Char}
    (h : (toString a).toList ++ ']' :: x = (toString b).toList ++ ']' :: y) : a = b ∧ x = y := by
  have htake (n : Nat) (z : List Char) :
      ((toString n).toList ++ ']' :: z).takeWhile Char.isDigit = (toString n).toList := by
    have hdigits : ∀ c ∈ (toString n).toList, c.isDigit = true := by
      rw [Nat.toString_eq_repr, Nat.repr_eq_ofList_toDigits, String.toList_ofList]
      exact fun c hc => Nat.isDigit_of_mem_toDigits (by decide) (by decide) hc
    rw [List.takeWhile_append_of_pos hdigits, List.takeWhile_cons_of_neg (by decide),
      List.append_nil]
  have hindex : (toString a).toList = (toString b).toList := by
    rw [← htake a x, h, htake b y]
  rw [hindex] at h
  exact ⟨Nat.repr_inj.mp (String.toList_inj.mp hindex),
    (List.cons.inj (List.append_cancel_left h)).2⟩

/-- The field path of a task tells its place, whatever follows. -/
theorem TaskPlace.path_append_inj {a b : TaskPlace} {x y : String}
    (h : a.path ++ x = b.path ++ y) : a = b ∧ x = y := by
  obtain ⟨i, j⟩ := a
  obtain ⟨i', j'⟩ := b
  have hchars := congrArg String.toList h
  simp only [TaskPlace.path, String.toList_append, List.append_assoc] at hchars
  obtain ⟨rfl, hrest⟩ := index_inj (List.append_cancel_left hchars)
  obtain ⟨rfl, hend⟩ := index_inj (List.append_cancel_left hrest)
  exact ⟨rfl, String.toList_inj.mp hend⟩

/-- A subject is known by its path. -/
theorem Subject.field_injective : Function.Injective Subject.field := by
  have hhead (x : String) : ∀ name ∈ ["nomprojet", "coderobin", "stage", "pipeline"],
      name ≠ "pipeline[" ++ x := by
    have hplain : ∀ name ∈ ["nomprojet", "coderobin", "stage", "pipeline"],
        '[' ∉ name.toList := by decide
    rintro name hname rfl
    exact hplain _ hname (by simp)
  have hpath (place : TaskPlace) (x : String) : ∃ y, place.path ++ x = "pipeline[" ++ y := by
    simp only [TaskPlace.path, String.append_assoc]
    exact ⟨_, rfl⟩
  have htasks (i : Nat) : ∃ y, (tasks i).field = "pipeline[" ++ y := by
    simp only [field, String.append_assoc]
    exact ⟨_, rfl⟩
  have hlist (i : Nat) (place : TaskPlace) (part : TaskPart) :
      (tasks i).field ≠ (task place part).field := by
    intro h
    have hchars := congrArg String.toList h
    simp only [field, TaskPlace.path, String.toList_append, List.append_assoc] at hchars
    have hrest := (index_inj (x := ".tasks".toList) (List.append_cancel_left hchars)).2
    simpa using congrArg List.length hrest
  intro s s' h
  cases s with
  | task place part =>
    cases s' with
    | task place' part' =>
        obtain ⟨rfl, hsuffix⟩ := TaskPlace.path_append_inj h
        rw [TaskPart.suffix_injective hsuffix]
    | tasks i => exact absurd h.symm (hlist i place part)
    | _ =>
        obtain ⟨y, hy⟩ := hpath place part.suffix
        exact absurd (h.symm.trans hy) (hhead y _ (by decide))
  | tasks i =>
    cases s' with
    | task place' part' => exact absurd h (hlist i place' part')
    | tasks i' =>
        have hchars := congrArg String.toList h
        simp only [field, String.toList_append, List.append_assoc] at hchars
        obtain ⟨rfl, -⟩ := index_inj (x := ".tasks".toList) (List.append_cancel_left hchars)
        rfl
    | _ =>
        obtain ⟨y, hy⟩ := htasks i
        exact absurd (h.symm.trans hy) (hhead y _ (by decide))
  | _ =>
    cases s' with
    | task place' part' =>
        obtain ⟨y, hy⟩ := hpath place' part'.suffix
        exact absurd (h.trans hy) (hhead y _ (by decide))
    | tasks i' =>
        obtain ⟨y, hy⟩ := htasks i'
        exact absurd (h.trans hy) (hhead y _ (by decide))
    | _ => first | rfl | exact absurd h (by decide)

/-! ## Broken rules -/

namespace Payload

/-- Whether a task has a name, of which `symbol` is the symbol. -/
def Task.AsksFor (t : Task) (symbol : String) : Prop :=
  Text.isBlankText t.name = false ∧ t.symbol = symbol

instance (t : Task) (symbol : String) : Decidable (t.AsksFor symbol) :=
  inferInstanceAs (Decidable (_ ∧ _))

/-- The task at a place. -/
def taskAt? (p : Payload) (place : TaskPlace) : Option Task :=
  p.pipeline[place.step]?.bind fun s => s.tasks[place.task]?

/-- Whether the task at a place is the first one that asks for a symbol. The other fields of the
tasks do not matter. -/
def FirstAsksFor (p : Payload) (symbol : String) (place : TaskPlace) (t : Task) : Prop :=
  p.taskAt? place = some t ∧ t.AsksFor symbol ∧
    ∀ place' t', place'.Before place → p.taskAt? place' = some t' → ¬t'.AsksFor symbol

/-- Whether a payload breaks a rule. -/
def Breaks (p : Payload) : Violation → Prop
  | .projectName problem =>
    if Text.isBlankText p.name then problem = .empty else problem.Describes (normalizeName p.name)
  | .robinBlank => Text.isBlankText p.robin = true
  | .stageUnknown given => given = p.stage ∧ ∀ stage : Stage, stage.name ≠ p.stage
  | .noSteps => p.pipeline = []
  | .noTasks step => ∃ s, p.pipeline[step]? = some s ∧ s.tasks = []
  | .priorityUnknown place given =>
    ∃ t, p.taskAt? place = some t ∧ given = t.priority ∧
      ∀ priority : Priority, priority.name ≠ t.priority
  | .kindUnknown place given =>
    ∃ t, p.taskAt? place = some t ∧ given = t.kind ∧ ∀ kind : TaskKind, kind.name ≠ t.kind
  | .slotsOutOfRange place given =>
    ∃ t, p.taskAt? place = some t ∧ given = t.poolSlots ∧
      ¬(1 ≤ t.poolSlots.toInt ∧ t.poolSlots.toInt ≤ 5)
  | .taskNameBlank place => ∃ t, p.taskAt? place = some t ∧ Text.isBlankText t.name = true
  | .taskSymbol place problem =>
    ∃ t, p.taskAt? place = some t ∧ Text.isBlankText t.name = false ∧ problem.Describes t.symbol
  | .symbolTaken place name first =>
    ∃ t t', p.taskAt? place = some t ∧ name = t.name ∧ Text.isBlankText t.name = false ∧
      (∀ problem : Symbol.Problem, ¬problem.Describes t.symbol) ∧
        first.place.Before place ∧ p.FirstAsksFor t.symbol first.place t' ∧
          first = ⟨t.symbol, t'.name, first.place⟩

/-! ## Tasks with their places -/

/-- The tasks of step `i` with their places, from position `j` on. -/
def placedTasks (i j : Nat) : List Task → List (TaskPlace × Task)
  | [] => []
  | t :: ts => (⟨i, j⟩, t) :: placedTasks i (j + 1) ts

/-- The tasks of some steps with their places, from step `i` on. -/
def placedSteps (i : Nat) : List Step → List (TaskPlace × Task)
  | [] => []
  | s :: ss => placedTasks i 0 s.tasks ++ placedSteps (i + 1) ss

/-- The tasks of a step have the place of the step and follow each other. -/
theorem mem_placedTasks_iff {i j : Nat} {ts : List Task} {place : TaskPlace} {t : Task} :
    (place, t) ∈ placedTasks i j ts ↔
      place.step = i ∧ j ≤ place.task ∧ ts[place.task - j]? = some t := by
  induction ts generalizing j with
  | nil => simp [placedTasks]
  | cons u ts ih =>
      obtain ⟨step, task⟩ := place
      rw [placedTasks, List.mem_cons, ih, Prod.mk.injEq, TaskPlace.mk.injEq]
      dsimp only
      constructor
      · rintro (⟨⟨rfl, rfl⟩, rfl⟩ | ⟨rfl, hle, ht⟩)
        · exact ⟨rfl, Nat.le_refl task, by simp⟩
        · refine ⟨rfl, by omega, ?_⟩
          rw [show task - j = task - (j + 1) + 1 by omega, List.getElem?_cons_succ]
          exact ht
      · rintro ⟨rfl, hle, ht⟩
        rcases Nat.eq_or_lt_of_le hle with rfl | hlt
        · rw [Nat.sub_self, List.getElem?_cons_zero] at ht
          exact Or.inl ⟨⟨rfl, rfl⟩, (Option.some.inj ht).symm⟩
        · rw [show task - j = task - (j + 1) + 1 by omega, List.getElem?_cons_succ] at ht
          exact Or.inr ⟨rfl, hlt, ht⟩

/-- The tasks of a pipeline have the places at which its steps hold them. -/
theorem mem_placedSteps_iff {i : Nat} {ss : List Step} {place : TaskPlace} {t : Task} :
    (place, t) ∈ placedSteps i ss ↔
      i ≤ place.step ∧ ∃ s, ss[place.step - i]? = some s ∧ s.tasks[place.task]? = some t := by
  induction ss generalizing i with
  | nil => simp [placedSteps]
  | cons u ss ih =>
      rw [placedSteps, List.mem_append, mem_placedTasks_iff, ih]
      constructor
      · rintro (⟨rfl, -, ht⟩ | ⟨hle, s, hs, ht⟩)
        · exact ⟨Nat.le_refl _, u, by simp, ht⟩
        · refine ⟨by omega, s, ?_, ht⟩
          rw [show place.step - i = place.step - (i + 1) + 1 by omega, List.getElem?_cons_succ]
          exact hs
      · rintro ⟨hle, s, hs, ht⟩
        rcases Nat.eq_or_lt_of_le hle with rfl | hlt
        · rw [Nat.sub_self, List.getElem?_cons_zero] at hs
          obtain rfl := Option.some.inj hs
          exact Or.inl ⟨rfl, Nat.zero_le _, ht⟩
        · rw [show place.step - i = place.step - (i + 1) + 1 by omega,
            List.getElem?_cons_succ] at hs
          exact Or.inr ⟨hlt, s, hs, ht⟩

/-- The task at a place is the one that is listed with it. -/
theorem taskAt?_eq_some_iff {p : Payload} {place : TaskPlace} {t : Task} :
    p.taskAt? place = some t ↔ (place, t) ∈ placedSteps 0 p.pipeline := by
  rw [mem_placedSteps_iff, taskAt?, Option.bind_eq_some_iff, Nat.sub_zero]
  simp

/-- The places of a pipeline stand in their order. -/
theorem pairwise_placedSteps (i : Nat) (ss : List Step) :
    (placedSteps i ss).Pairwise fun x y => x.1.Before y.1 := by
  have htasks (i j : Nat) (ts : List Task) :
      (placedTasks i j ts).Pairwise fun x y => x.1.Before y.1 := by
    induction ts generalizing j with
    | nil => exact List.Pairwise.nil
    | cons t ts ih =>
        refine List.Pairwise.cons ?_ (ih (j + 1))
        rintro ⟨place, u⟩ hu
        obtain ⟨hstep, htask, -⟩ := mem_placedTasks_iff.mp hu
        exact Or.inr ⟨hstep.symm, htask⟩
  induction ss generalizing i with
  | nil => exact List.Pairwise.nil
  | cons s ss ih =>
      refine List.pairwise_append.mpr ⟨htasks i 0 s.tasks, ih (i + 1), ?_⟩
      rintro ⟨place, t⟩ ht ⟨place', t'⟩ ht'
      obtain ⟨hstep, -⟩ := mem_placedTasks_iff.mp ht
      obtain ⟨hstep', -⟩ := mem_placedSteps_iff.mp ht'
      have hlt : place.step < place'.step := by omega
      exact Or.inl hlt

/-- What stands before a task in the list of all tasks is what has an earlier place. -/
theorem mem_front_iff {ss : List Step} {front back : List (TaskPlace × Task)}
    {x y : TaskPlace × Task} (hsplit : placedSteps 0 ss = front ++ x :: back) :
    y ∈ front ↔ y ∈ placedSteps 0 ss ∧ y.1.Before x.1 := by
  have hsorted := pairwise_placedSteps 0 ss
  rw [hsplit, List.pairwise_append, List.pairwise_cons] at hsorted
  obtain ⟨-, ⟨hback, -⟩, hfront⟩ := hsorted
  rw [hsplit, List.mem_append, List.mem_cons]
  constructor
  · intro hy
    exact ⟨Or.inl hy, hfront y hy x List.mem_cons_self⟩
  · rintro ⟨hy | rfl | hy, hbefore⟩
    · exact hy
    · exact absurd hbefore hbefore.asymm
    · exact absurd hbefore (hback y hy).asymm

/-! ## Claims -/

/-- The claim that a task at a place lays to its symbol. -/
def claimOf (x : TaskPlace × Task) : Claim :=
  ⟨x.2.symbol, x.2.name, x.1⟩

/-- The claim of the first of some tasks that asks for a symbol. -/
def firstClaim? (before : List (TaskPlace × Task)) (symbol : String) : Option Claim :=
  (before.find? fun x => x.2.AsksFor symbol).map claimOf

/-- Whether some claims say of each usable symbol which of some tasks asks for it first. -/
def Records (claims : List Claim) (before : List (TaskPlace × Task)) : Prop :=
  ∀ symbol, Symbol.problem? symbol = none →
    claims.find? (·.symbol = symbol) = firstClaim? before symbol

/-- One more task asks first for a symbol only if no task before it does. -/
theorem firstClaim?_append_singleton (before : List (TaskPlace × Task)) (x : TaskPlace × Task)
    (symbol : String) :
    firstClaim? (before ++ [x]) symbol =
      (firstClaim? before symbol).or
        (if x.2.AsksFor symbol then some (claimOf x) else none) := by
  rw [firstClaim?, firstClaim?, List.find?_append, Option.map_or]
  by_cases hasks : x.2.AsksFor symbol <;> simp [hasks]

/-! ## The report of a task -/

/-- Whether a task at a place breaks a rule when some other tasks stand before it. -/
def BreaksAfter (before : List (TaskPlace × Task)) (x : TaskPlace × Task) : Violation → Prop
  | .priorityUnknown place given =>
    place = x.1 ∧ given = x.2.priority ∧ ∀ priority : Priority, priority.name ≠ x.2.priority
  | .kindUnknown place given =>
    place = x.1 ∧ given = x.2.kind ∧ ∀ kind : TaskKind, kind.name ≠ x.2.kind
  | .slotsOutOfRange place given =>
    place = x.1 ∧ given = x.2.poolSlots ∧
      ¬(1 ≤ x.2.poolSlots.toInt ∧ x.2.poolSlots.toInt ≤ 5)
  | .taskNameBlank place => place = x.1 ∧ Text.isBlankText x.2.name = true
  | .taskSymbol place problem =>
    place = x.1 ∧ Text.isBlankText x.2.name = false ∧ problem.Describes x.2.symbol
  | .symbolTaken place name first =>
    place = x.1 ∧ name = x.2.name ∧ Text.isBlankText x.2.name = false ∧
      Symbol.problem? x.2.symbol = none ∧ firstClaim? before x.2.symbol = some first
  | _ => False

/-- A text that stands for nothing is no name of anything. -/
theorem not_isSome_iff_of_spelling {α : Type} {name : α → String} {o : Option α} {s : String}
    (h : ∀ a, o = some a ↔ name a = s) : ¬o.isSome = true ↔ ∀ a, name a ≠ s := by
  rw [Option.not_isSome_iff_eq_none, Option.eq_none_iff_forall_ne_some]
  exact forall_congr' fun a => not_congr (h a)

/-- The broken rules of a task's priority, kind and number of slots. -/
theorem mem_checkTaskFields_iff (place : TaskPlace) (t : Task) (v : Violation) :
    v ∈ checkTaskFields place t ↔
      ((∀ priority : Priority, priority.name ≠ t.priority) ∧
          v = .priorityUnknown place t.priority) ∨
        ((∀ kind : TaskKind, kind.name ≠ t.kind) ∧ v = .kindUnknown place t.kind) ∨
          (¬(1 ≤ t.poolSlots.toInt ∧ t.poolSlots.toInt ≤ 5) ∧
            v = .slotsOutOfRange place t.poolSlots) := by
  simp only [checkTaskFields, List.mem_append, List.mem_ite_nil_left, List.mem_singleton, or_assoc,
    PoolSlots.ofInt?_isSome_iff,
    not_isSome_iff_of_spelling (Priority.ofName?_eq_some_iff t.priority),
    not_isSome_iff_of_spelling (TaskKind.ofName?_eq_some_iff t.kind)]

/-- The broken rule of a task's name. -/
theorem checkTaskName_eq_error_iff {claims : List Claim} {before : List (TaskPlace × Task)}
    (h : Records claims before) (place : TaskPlace) (t : Task) (v : Violation) :
    checkTaskName claims place t.name = .error v ↔
      (Text.isBlankText t.name = true ∧ v = .taskNameBlank place) ∨
        (Text.isBlankText t.name = false ∧
          ∃ problem, Symbol.problem? t.symbol = some problem ∧ v = .taskSymbol place problem) ∨
          (Text.isBlankText t.name = false ∧ Symbol.problem? t.symbol = none ∧
            ∃ first, firstClaim? before t.symbol = some first ∧
              v = .symbolTaken place t.name first) := by
  have hsymbol : Symbol.ofName t.name = t.symbol := rfl
  unfold checkTaskName
  rw [hsymbol]
  cases hblank : Text.isBlankText t.name with
  | true => simp [eq_comm]
  | false =>
      cases hproblem : Symbol.problem? t.symbol with
      | some problem => simp [hproblem, eq_comm]
      | none =>
          rw [← h t.symbol hproblem]
          cases hfirst : claims.find? (·.symbol = t.symbol) with
          | some first => simp [hproblem, hfirst, eq_comm]
          | none => simp [hproblem, hfirst]

/-- The claims after a task still say who asked first, whichever rules the task breaks. -/
theorem records_checkTask {claims : List Claim} {before : List (TaskPlace × Task)}
    (h : Records claims before) (place : TaskPlace) (t : Task) :
    Records (checkTask claims place t).claims (before ++ [(place, t)]) := by
  intro symbol husable
  rw [firstClaim?_append_singleton, ← h symbol husable]
  unfold checkTask
  cases hname : checkTaskName claims place t.name with
  | error v =>
      by_cases hasks : t.AsksFor symbol
      · -- the symbol is usable, so the rule that is broken is that it is taken
        obtain ⟨hblank, rfl⟩ := hasks
        rcases (checkTaskName_eq_error_iff h place t v).mp hname with
          ⟨hblank', -⟩ | ⟨-, problem, hproblem, -⟩ | ⟨-, -, first, hfirst, -⟩
        · rw [hblank] at hblank'
          cases hblank'
        · rw [husable] at hproblem
          cases hproblem
        · rw [← h t.symbol husable] at hfirst
          rw [hfirst, Option.some_or]
      · rw [if_neg hasks, Option.or_none]
  | ok claim =>
      obtain ⟨hblank, -, -, rfl⟩ := (checkTaskName_eq_ok_iff _ _ _ _).mp hname
      have hfind : [claimOf (place, t)].find? (·.symbol = symbol) =
          if t.AsksFor symbol then some (claimOf (place, t)) else none := by
        by_cases hsymbol : t.symbol = symbol
        · simp [claimOf, Task.AsksFor, hblank, hsymbol]
        · simp [claimOf, Task.AsksFor, hsymbol]
      rw [← hfind, ← List.find?_append]
      rfl

/-- The report of a task holds the rules that it breaks after the tasks before it. -/
theorem mem_checkTask_iff {claims : List Claim} {before : List (TaskPlace × Task)}
    (h : Records claims before) (place : TaskPlace) (t : Task) (v : Violation) :
    v ∈ (checkTask claims place t).violations ↔ BreaksAfter before (place, t) v := by
  have hsplit : v ∈ (checkTask claims place t).violations ↔
      v ∈ checkTaskFields place t ∨ checkTaskName claims place t.name = .error v := by
    unfold checkTask
    cases checkTaskName claims place t.name with
    | error w => simp [eq_comm]
    | ok claim => simp
  rw [hsplit]
  constructor
  · rintro (hfields | hname)
    · rcases (mem_checkTaskFields_iff place t v).mp hfields with
        ⟨hunknown, rfl⟩ | ⟨hunknown, rfl⟩ | ⟨hrange, rfl⟩
      · exact ⟨rfl, rfl, hunknown⟩
      · exact ⟨rfl, rfl, hunknown⟩
      · exact ⟨rfl, rfl, hrange⟩
    · rcases (checkTaskName_eq_error_iff h place t v).mp hname with
        ⟨hblank, rfl⟩ | ⟨hblank, problem, hproblem, rfl⟩ | ⟨hblank, husable, first, hfirst, rfl⟩
      · exact ⟨rfl, hblank⟩
      · exact ⟨rfl, hblank, (Symbol.problem?_eq_some_iff _ _).mp hproblem⟩
      · exact ⟨rfl, rfl, hblank, husable, hfirst⟩
  · intro hbreaks
    cases v with
    | priorityUnknown place' given =>
        obtain ⟨rfl, rfl, hunknown⟩ := hbreaks
        exact Or.inl ((mem_checkTaskFields_iff _ _ _).mpr (Or.inl ⟨hunknown, rfl⟩))
    | kindUnknown place' given =>
        obtain ⟨rfl, rfl, hunknown⟩ := hbreaks
        exact Or.inl ((mem_checkTaskFields_iff _ _ _).mpr (Or.inr (Or.inl ⟨hunknown, rfl⟩)))
    | slotsOutOfRange place' given =>
        obtain ⟨rfl, rfl, hrange⟩ := hbreaks
        exact Or.inl ((mem_checkTaskFields_iff _ _ _).mpr (Or.inr (Or.inr ⟨hrange, rfl⟩)))
    | taskNameBlank place' =>
        obtain ⟨rfl, hblank⟩ := hbreaks
        exact Or.inr ((checkTaskName_eq_error_iff h _ _ _).mpr (Or.inl ⟨hblank, rfl⟩))
    | taskSymbol place' problem =>
        obtain ⟨rfl, hblank, hdescribes⟩ := hbreaks
        have hproblem := (Symbol.problem?_eq_some_iff _ _).mpr hdescribes
        exact Or.inr ((checkTaskName_eq_error_iff h _ _ _).mpr
          (Or.inr (Or.inl ⟨hblank, problem, hproblem, rfl⟩)))
    | symbolTaken place' name first =>
        obtain ⟨rfl, rfl, hblank, husable, hfirst⟩ := hbreaks
        exact Or.inr ((checkTaskName_eq_error_iff h _ _ _).mpr
          (Or.inr (Or.inr ⟨hblank, husable, first, hfirst, rfl⟩)))
    -- the other rules are not about one task
    | projectName _ => exact hbreaks.elim
    | robinBlank => exact hbreaks.elim
    | stageUnknown _ => exact hbreaks.elim
    | noSteps => exact hbreaks.elim
    | noTasks _ => exact hbreaks.elim

/-! ## The report of the steps -/

/-- Whether one of some tasks breaks a rule after those before it, of which some are given. -/
def SomeBreaks (before : List (TaskPlace × Task)) :
    List (TaskPlace × Task) → Violation → Prop
  | [], _ => False
  | x :: xs, v => BreaksAfter before x v ∨ SomeBreaks (before ++ [x]) xs v

/-- A rule is broken by one of the front tasks, or by one of the back ones after them. -/
theorem someBreaks_append_iff (before front back : List (TaskPlace × Task)) (v : Violation) :
    SomeBreaks before (front ++ back) v ↔
      SomeBreaks before front v ∨ SomeBreaks (before ++ front) back v := by
  induction front generalizing before with
  | nil => simp [SomeBreaks]
  | cons x front ih =>
      rw [List.cons_append, SomeBreaks, SomeBreaks, ih, List.append_assoc, List.singleton_append,
        or_assoc]

/-- A rule is broken by one of some tasks when the list can be cut at the task that breaks it after
those before. -/
theorem someBreaks_iff (before xs : List (TaskPlace × Task)) (v : Violation) :
    SomeBreaks before xs v ↔
      ∃ front x back, xs = front ++ x :: back ∧ BreaksAfter (before ++ front) x v := by
  constructor
  · intro h
    induction xs generalizing before with
    | nil => exact h.elim
    | cons x xs ih =>
        rcases h with h | h
        · exact ⟨[], x, xs, rfl, by rwa [List.append_nil]⟩
        · obtain ⟨front, y, back, rfl, hbreaks⟩ := ih (before ++ [x]) h
          rw [List.append_assoc, List.singleton_append] at hbreaks
          exact ⟨x :: front, y, back, rfl, hbreaks⟩
  · rintro ⟨front, x, back, rfl, hbreaks⟩
    exact (someBreaks_append_iff before front (x :: back) v).mpr (Or.inr (Or.inl hbreaks))

/-- What the loop over the tasks of a step keeps: the claims say who asked first, and the report
holds what the tasks so far break. -/
theorem mem_checkTasks_iff {claims : List Claim} {before : List (TaskPlace × Task)}
    (h : Records claims before) (i j : Nat) (ts : List Task) :
    Records (checkTasks claims i j ts).claims (before ++ placedTasks i j ts) ∧
      ∀ v, v ∈ (checkTasks claims i j ts).violations ↔
        SomeBreaks before (placedTasks i j ts) v := by
  induction ts generalizing claims before j with
  | nil =>
      rw [placedTasks, List.append_nil]
      exact ⟨h, fun v => by simp [checkTasks, SomeBreaks]⟩
  | cons t ts ih =>
      obtain ⟨hrecords, hmem⟩ := ih (records_checkTask h ⟨i, j⟩ t) (j + 1)
      rw [List.append_assoc, List.singleton_append] at hrecords
      refine ⟨hrecords, fun v => ?_⟩
      rw [checkTasks, List.mem_append, mem_checkTask_iff h, hmem]
      rfl

/-- What the loop over the steps keeps, in the same way. -/
theorem mem_checkSteps_iff {claims : List Claim} {before : List (TaskPlace × Task)}
    (h : Records claims before) (i : Nat) (ss : List Step) (v : Violation) :
    v ∈ (checkSteps claims i ss).violations ↔
      (∃ k s, ss[k]? = some s ∧ s.tasks = [] ∧ v = .noTasks (i + k)) ∨
        SomeBreaks before (placedSteps i ss) v := by
  induction ss generalizing claims before i with
  | nil => simp [checkSteps, placedSteps, SomeBreaks]
  | cons s ss ih =>
      obtain ⟨hrecords, hmem⟩ := mem_checkTasks_iff h i 0 s.tasks
      have hempty : (v ∈ if s.tasks.isEmpty then [Violation.noTasks i] else []) ↔
          s.tasks = [] ∧ v = .noTasks i := by
        cases s.tasks <;> simp
      have hrest : (∃ k u, (s :: ss)[k]? = some u ∧ u.tasks = [] ∧ v = .noTasks (i + k)) ↔
          (s.tasks = [] ∧ v = .noTasks i) ∨
            ∃ k u, ss[k]? = some u ∧ u.tasks = [] ∧ v = .noTasks (i + 1 + k) := by
        constructor
        · rintro ⟨_ | k, u, hu, hnone, rfl⟩
          · obtain rfl := Option.some.inj hu
            exact Or.inl ⟨hnone, rfl⟩
          · exact Or.inr ⟨k, u, hu, hnone, by rw [Nat.add_right_comm, Nat.add_assoc]⟩
        · rintro (⟨hnone, rfl⟩ | ⟨k, u, hu, hnone, rfl⟩)
          · exact ⟨0, s, rfl, hnone, rfl⟩
          · exact ⟨k + 1, u, hu, hnone, by rw [Nat.add_right_comm, Nat.add_assoc]⟩
      rw [checkSteps, List.mem_append, checkStep, List.mem_append, hempty, hmem, ih hrecords, hrest,
        placedSteps, someBreaks_append_iff]
      exact or_or_or_comm

/-! ## The rules of the pipeline -/

/-- The first claim among the tasks before a task is that of the first task of the pipeline that
asks for the symbol. -/
theorem firstClaim?_eq_some_iff {p : Payload} {front back : List (TaskPlace × Task)}
    {x : TaskPlace × Task} (hsplit : placedSteps 0 p.pipeline = front ++ x :: back)
    (symbol : String) (first : Claim) :
    firstClaim? front symbol = some first ↔
      first.place.Before x.1 ∧ ∃ t', p.FirstAsksFor symbol first.place t' ∧
        first = ⟨symbol, t'.name, first.place⟩ := by
  rw [firstClaim?, Option.map_eq_some_iff]
  constructor
  · rintro ⟨⟨place, t'⟩, hfind, rfl⟩
    obtain ⟨hasks, early, late, hfront, hearly⟩ := List.find?_eq_some_iff_append.mp hfind
    have hasks' : t'.AsksFor symbol := by simpa using hasks
    have hmem : (place, t') ∈ front := by
      rw [hfront]
      exact List.mem_append_right _ List.mem_cons_self
    obtain ⟨hplaced, hbefore⟩ := (mem_front_iff hsplit).mp hmem
    refine ⟨hbefore, t', ⟨taskAt?_eq_some_iff.mpr hplaced, hasks', ?_⟩, ?_⟩
    · intro place' u hbefore' hu
      have hsplit' : placedSteps 0 p.pipeline = early ++ (place, t') :: (late ++ x :: back) := by
        rw [hsplit, hfront, List.append_assoc, List.cons_append]
      have hmem' := (mem_front_iff hsplit').mpr ⟨taskAt?_eq_some_iff.mp hu, hbefore'⟩
      simpa using hearly _ hmem'
    · rw [claimOf, hasks'.2]
  · rintro ⟨hbefore, t', ⟨hat, hasks, hfirst⟩, hclaim⟩
    have hmem := (mem_front_iff hsplit).mpr ⟨taskAt?_eq_some_iff.mp hat, hbefore⟩
    obtain ⟨early, late, hfront⟩ := List.append_of_mem hmem
    refine ⟨(first.place, t'), ?_, ?_⟩
    · refine List.find?_eq_some_iff_append.mpr ⟨by simpa using hasks, early, late, hfront, ?_⟩
      rintro ⟨place', u⟩ hu
      have hsplit' : placedSteps 0 p.pipeline =
          early ++ (first.place, t') :: (late ++ x :: back) := by
        rw [hsplit, hfront, List.append_assoc, List.cons_append]
      obtain ⟨hu, hbefore'⟩ := (mem_front_iff hsplit').mp hu
      simpa using hfirst place' u hbefore' (taskAt?_eq_some_iff.mpr hu)
    · rw [hclaim, claimOf, hasks.2]

/-- The rules that the steps of a payload break, each with a task that breaks it and what stands
before and after that task. -/
theorem mem_violations_steps_iff (p : Payload) (v : Violation) :
    v ∈ (checkSteps [] 0 p.pipeline).violations ↔
      (∃ k s, p.pipeline[k]? = some s ∧ s.tasks = [] ∧ v = .noTasks k) ∨
        ∃ front x back, placedSteps 0 p.pipeline = front ++ x :: back ∧ BreaksAfter front x v := by
  have hnone : Records [] [] := fun _ _ => rfl
  rw [mem_checkSteps_iff hnone, someBreaks_iff]
  simp only [Nat.zero_add, List.nil_append]

/-- A task stands at a place of the pipeline when the list of all tasks can be cut there. -/
theorem exists_split_iff (p : Payload) (place : TaskPlace) (P : Task → Prop) :
    (∃ front x back, placedSteps 0 p.pipeline = front ++ x :: back ∧ place = x.1 ∧ P x.2) ↔
      ∃ t, p.taskAt? place = some t ∧ P t := by
  constructor
  · rintro ⟨front, ⟨place', t⟩, back, hsplit, rfl, hP⟩
    refine ⟨t, taskAt?_eq_some_iff.mpr ?_, hP⟩
    rw [hsplit]
    exact List.mem_append_right _ List.mem_cons_self
  · rintro ⟨t, hat, hP⟩
    obtain ⟨front, back, hsplit⟩ := List.append_of_mem (taskAt?_eq_some_iff.mp hat)
    exact ⟨front, (place, t), back, hsplit, rfl, hP⟩

/-- A symbol is taken by what stands before its task just when the rule about the whole pipeline
says so. -/
theorem breaks_symbolTaken_iff (p : Payload) (place : TaskPlace) (name : String) (first : Claim) :
    (∃ front x back, placedSteps 0 p.pipeline = front ++ x :: back ∧
      BreaksAfter front x (.symbolTaken place name first)) ↔
        p.Breaks (.symbolTaken place name first) := by
  have husable (symbol : String) : Symbol.problem? symbol = none ↔
      ∀ problem : Symbol.Problem, ¬problem.Describes symbol := by
    rw [Option.eq_none_iff_forall_ne_some]
    exact forall_congr' fun problem => not_congr (Symbol.problem?_eq_some_iff symbol problem)
  constructor
  · rintro ⟨front, ⟨place', t⟩, back, hsplit, rfl, rfl, hblank, hproblem, hfirst⟩
    obtain ⟨hbefore, t', hasks, hclaim⟩ := (firstClaim?_eq_some_iff hsplit _ _).mp hfirst
    have hat : (place, t) ∈ placedSteps 0 p.pipeline := by
      rw [hsplit]
      exact List.mem_append_right _ List.mem_cons_self
    exact ⟨t, t', taskAt?_eq_some_iff.mpr hat, rfl, hblank, (husable _).mp hproblem, hbefore, hasks,
      hclaim⟩
  · rintro ⟨t, t', hat, rfl, hblank, hproblem, hbefore, hasks, hclaim⟩
    obtain ⟨front, back, hsplit⟩ := List.append_of_mem (taskAt?_eq_some_iff.mp hat)
    exact ⟨front, (place, t), back, hsplit, rfl, rfl, hblank, (husable _).mpr hproblem,
      (firstClaim?_eq_some_iff hsplit _ _).mpr ⟨hbefore, t', hasks, hclaim⟩⟩

/-- The broken rule of a project's name. -/
theorem mem_checkName_iff (name : String) (v : Violation) :
    v ∈ checkName name ↔ ∃ problem, v = .projectName problem ∧
      if Text.isBlankText name then problem = .empty
      else problem.Describes (normalizeName name) := by
  unfold checkName
  split_ifs
  · simp
  · simp only [Option.mem_toList, Option.map_eq_some_iff, nameProblem?_eq_some_iff]
    exact exists_congr fun problem => by rw [and_comm, eq_comm]

/-- The broken rules of what a project says before its steps. -/
theorem mem_checkHead_iff (p : Payload) (v : Violation) :
    v ∈ p.checkHead ↔
      (∃ problem, v = .projectName problem ∧ p.Breaks (.projectName problem)) ∨
        (Text.isBlankText p.robin = true ∧ v = .robinBlank) ∨
          ((∀ stage : Stage, stage.name ≠ p.stage) ∧ v = .stageUnknown p.stage) ∨
            (p.pipeline = [] ∧ v = .noSteps) := by
  simp only [checkHead, List.mem_append, mem_checkName_iff, List.mem_ite_nil_left,
    List.mem_ite_nil_right, List.mem_singleton, or_assoc, List.isEmpty_iff, Breaks,
    not_isSome_iff_of_spelling (Stage.ofName?_eq_some_iff p.stage)]

/-- Validation reports the rules that the payload breaks. -/
theorem mem_violations_iff (p : Payload) (v : Violation) : v ∈ p.violations ↔ p.Breaks v := by
  rw [violations, List.mem_append, mem_violations_steps_iff, mem_checkHead_iff]
  cases v with
  | projectName problem => simp [BreaksAfter]
  | robinBlank => simp [Breaks, BreaksAfter]
  | stageUnknown given => simp [Breaks, BreaksAfter, and_comm]
  | noSteps => simp [Breaks, BreaksAfter]
  | noTasks step => simp [Breaks, BreaksAfter]
  | priorityUnknown place given =>
      simp only [reduceCtorEq, false_and, and_false, exists_false, or_self, false_or]
      exact p.exists_split_iff place fun t =>
        given = t.priority ∧ ∀ priority : Priority, priority.name ≠ t.priority
  | kindUnknown place given =>
      simp only [reduceCtorEq, false_and, and_false, exists_false, or_self, false_or]
      exact p.exists_split_iff place fun t =>
        given = t.kind ∧ ∀ kind : TaskKind, kind.name ≠ t.kind
  | slotsOutOfRange place given =>
      simp only [reduceCtorEq, false_and, and_false, exists_false, or_self, false_or]
      exact p.exists_split_iff place fun t =>
        given = t.poolSlots ∧ ¬(1 ≤ t.poolSlots.toInt ∧ t.poolSlots.toInt ≤ 5)
  | taskNameBlank place =>
      simp only [reduceCtorEq, false_and, and_false, exists_false, or_self, false_or]
      exact p.exists_split_iff place fun t => Text.isBlankText t.name = true
  | taskSymbol place problem =>
      simp only [reduceCtorEq, false_and, and_false, exists_false, or_self, false_or]
      exact p.exists_split_iff place fun t =>
        Text.isBlankText t.name = false ∧ problem.Describes t.symbol
  | symbolTaken place name first => simpa using p.breaks_symbolTaken_iff place name first

/-! ## The order of the report -/

/-- Whether broken rules stand in the order of the document, from one position on and before another
one. -/
def Ordered (lo hi : List Nat) (vs : List Violation) : Prop :=
  vs.Pairwise Violation.Precedes ∧
    ∀ v ∈ vs, lo ≤ v.subject.position ∧ v.subject.position < hi

theorem ordered_nil (lo hi : List Nat) : Ordered lo hi [] :=
  ⟨List.Pairwise.nil, fun _ hv => absurd hv List.not_mem_nil⟩

/-- One violation is ordered when it lies within the bounds. -/
theorem ordered_singleton {v : Violation} {lo hi : List Nat} (hlo : lo ≤ v.subject.position)
    (hhi : v.subject.position < hi) : Ordered lo hi [v] := by
  refine ⟨List.pairwise_singleton _ _, fun w hw => ?_⟩
  rw [List.mem_singleton.mp hw]
  exact ⟨hlo, hhi⟩

/-- A violation under a condition is ordered when it lies within the bounds. -/
theorem ordered_ite_nil {c : Prop} [Decidable c] {v : Violation} {lo hi : List Nat}
    (hlo : lo ≤ v.subject.position) (hhi : v.subject.position < hi) :
    Ordered lo hi (if c then [] else [v]) ∧ Ordered lo hi (if c then [v] else []) := by
  split_ifs
  · exact ⟨ordered_nil lo hi, ordered_singleton hlo hhi⟩
  · exact ⟨ordered_singleton hlo hhi, ordered_nil lo hi⟩

/-- Violations up to a position and others from there on are ordered together. -/
theorem Ordered.append {lo mid hi : List Nat} {front back : List Violation}
    (hfront : Ordered lo mid front) (hback : Ordered mid hi back) (hlo : lo < mid)
    (hhi : mid < hi) : Ordered lo hi (front ++ back) := by
  constructor
  · refine List.pairwise_append.mpr ⟨hfront.1, hback.1, fun v hv w hw => ?_⟩
    exact lt_of_lt_of_le (hfront.2 v hv).2 (hback.2 w hw).1
  · intro v hv
    rcases List.mem_append.mp hv with hv | hv
    · obtain ⟨hle, hlt⟩ := hfront.2 v hv
      exact ⟨hle, lt_trans hlt hhi⟩
    · obtain ⟨hle, hlt⟩ := hback.2 v hv
      exact ⟨le_trans (le_of_lt hlo) hle, hlt⟩

/-- The rules of a task's name are about its name. -/
theorem subject_of_checkTaskName {claims : List Claim} {place : TaskPlace} {name : String}
    {v : Violation} (h : checkTaskName claims place name = .error v) :
    v.subject = .task place .name := by
  unfold checkTaskName at h
  split_ifs at h
  · rw [← Except.error.inj h]
    rfl
  · dsimp only at h
    split at h
    · rw [← Except.error.inj h]
      rfl
    · split at h
      · rw [← Except.error.inj h]
        rfl
      · cases h

/-- The report of a task keeps to the position of the task. -/
theorem ordered_checkTask (claims : List Claim) (place : TaskPlace) (t : Task) :
    Ordered [4, place.step, place.task] [4, place.step, place.task + 1]
      (checkTask claims place t).violations := by
  have hnext (n : Nat) : [4, place.step, place.task, n] < [4, place.step, place.task, n + 1] := by
    simp [List.cons_lt_cons_iff]
  have hlast (n : Nat) : [4, place.step, place.task, n] < [4, place.step, place.task + 1] := by
    simp [List.cons_lt_cons_iff]
  have hfirst (n : Nat) : [4, place.step, place.task] < [4, place.step, place.task, n] := by
    simp
  have hfields : Ordered [4, place.step, place.task] [4, place.step, place.task, 3]
      (checkTaskFields place t) :=
    ((ordered_ite_nil (le_of_lt (hfirst 0)) (hnext 0)).1.append
      (ordered_ite_nil (le_refl _) (hnext 1)).1 (hfirst 1) (hnext 1)).append
        (ordered_ite_nil (le_refl _) (hnext 2)).1 (hfirst 2) (hnext 2)
  unfold checkTask
  cases hname : checkTaskName claims place t.name with
  | ok claim =>
      have hwhole := hfields.append (ordered_nil _ _) (hfirst 3) (hlast 3)
      rwa [List.append_nil] at hwhole
  | error v =>
      have hposition : v.subject.position = [4, place.step, place.task, 3] := by
        rw [subject_of_checkTaskName hname]
        rfl
      refine hfields.append (ordered_singleton ?_ ?_) (hfirst 3) (hlast 3)
      · exact le_of_eq hposition.symm
      · rw [hposition]
        exact hlast 3

/-- The report of the tasks of a step keeps to the position of the step. -/
theorem ordered_checkTasks (claims : List Claim) (i j : Nat) (ts : List Task) :
    Ordered [4, i, j] [4, i + 1] (checkTasks claims i j ts).violations := by
  induction ts generalizing claims j with
  | nil => exact ordered_nil _ _
  | cons t ts ih =>
      refine (ordered_checkTask claims ⟨i, j⟩ t).append (ih _ (j + 1)) ?_ ?_
      · simp [List.cons_lt_cons_iff]
      · simp [List.cons_lt_cons_iff]

/-- The report of the steps comes after that of the fields of the project. -/
theorem ordered_checkSteps (claims : List Claim) (i : Nat) (ss : List Step) :
    Ordered [4, i] [5] (checkSteps claims i ss).violations := by
  induction ss generalizing claims i with
  | nil => exact ordered_nil _ _
  | cons s ss ih =>
      have hfirst : [4, i] < [4, i, 0] := by simp
      have hnext : [4, i, 0] < [4, i + 1] := by simp [List.cons_lt_cons_iff]
      have hstep : Ordered [4, i] [4, i + 1] (checkStep claims i s).violations :=
        (ordered_ite_nil (le_refl _) hfirst).2.append (ordered_checkTasks claims i 0 s.tasks)
          hfirst hnext
      refine hstep.append (ih _ (i + 1)) (lt_trans hfirst hnext) ?_
      simp [List.cons_lt_cons_iff]

/-- The report of the fields of a project comes before that of its steps. -/
theorem ordered_checkHead (p : Payload) : Ordered [0] [4, 0] p.checkHead := by
  have hname : Ordered [0] [1] (checkName p.name) := by
    unfold checkName
    split_ifs
    · exact ordered_singleton (le_refl _) (show [0] < [1] by decide)
    · cases nameProblem? (normalizeName p.name) with
      | none => exact ordered_nil _ _
      | some problem => exact ordered_singleton (le_refl _) (show [0] < [1] by decide)
  have hrobin : Ordered [1] [2] (if Text.isBlankText p.robin then [.robinBlank] else []) :=
    (ordered_ite_nil (le_refl _) (show [1] < [2] by decide)).2
  have hstage : Ordered [2] [3]
      (if (Stage.ofName? p.stage).isSome then [] else [.stageUnknown p.stage]) :=
    (ordered_ite_nil (le_refl _) (show [2] < [3] by decide)).1
  have hpipeline : Ordered [3] [4, 0] (if p.pipeline.isEmpty then [.noSteps] else []) :=
    (ordered_ite_nil (le_refl _) (show [3] < [4, 0] by decide)).2
  have hfront := (hname.append hrobin (by decide) (by decide)).append hstage
    (by decide) (by decide)
  exact hfront.append hpipeline (by decide) (by decide)

/-- Validation reports broken rules in the order of the document, each subject once at most. -/
theorem pairwise_violations (p : Payload) : p.violations.Pairwise Violation.Precedes := by
  have hsteps := ordered_checkSteps [] 0 p.pipeline
  exact (p.ordered_checkHead.append hsteps (by decide) (by decide)).1

/-! ## The report of a payload -/

/-- A payload is refused with its violations when it has some. -/
theorem validate_eq_error_iff (p : Payload) (vs : List Violation) :
    p.validate = .error vs ↔ vs ≠ [] ∧ vs = p.violations := by
  unfold validate
  cases p.violations with
  | nil => simp
  | cons w ws =>
      simp only [Except.error.injEq]
      constructor
      · rintro rfl
        simp
      · rintro ⟨-, rfl⟩
        rfl

/-- A list of broken rules is the report of validation when it holds all of them in their order. -/
theorem eq_violations_iff (p : Payload) (vs : List Violation) :
    vs = p.violations ↔ (∀ v, v ∈ vs ↔ p.Breaks v) ∧ vs.Pairwise Violation.Precedes := by
  constructor
  · rintro rfl
    exact ⟨p.mem_violations_iff, p.pairwise_violations⟩
  · rintro ⟨hmem, hsorted⟩
    refine hsorted.eq_of_mem_iff p.pairwise_violations fun v => ?_
    rw [hmem, mem_violations_iff]

/-- A field belongs to one subject, so rules about the field are rules about the subject. -/
theorem breaks_iff_of_field {p : Payload} {s : Subject} :
    (∃ v, p.Breaks v ∧ v.field = s.field) ↔ ∃ v, p.Breaks v ∧ v.subject = s := by
  have hfield (v : Violation) : v.field = s.field ↔ v.subject = s := by
    rw [← Violation.field_subject, Subject.field_injective.eq_iff]
  exact exists_congr fun v => and_congr_right fun _ => hfield v

/-- The rules of a project's name in one: it is not blank, and its normal form holds characters of
names only. -/
theorem exists_projectName_iff (p : Payload) :
    (∃ v, p.Breaks v ∧ v.subject = .projectName) ↔
      Text.isBlankText p.name = true ∨
        ∃ c ∈ (normalizeName p.name).toList, isNameChar c = false := by
  have hproblem : (∃ v, p.Breaks v ∧ v.subject = .projectName) ↔
      ∃ problem, p.Breaks (.projectName problem) := by
    constructor
    · rintro ⟨v, hv, hsubject⟩
      cases v with
      | projectName problem => exact ⟨problem, hv⟩
      | _ => cases hsubject
    · rintro ⟨problem, hbreaks⟩
      exact ⟨.projectName problem, hbreaks, rfl⟩
  rw [hproblem]
  cases hblank : Text.isBlankText p.name with
  | true => simp [Breaks, hblank]
  | false =>
      have hnonempty : normalizeName p.name ≠ "" := normalizeName_ne_empty hblank
      have hnone := nameProblem?_eq_none_iff (normalizeName p.name)
      simp only [Breaks, hblank, Bool.false_eq_true, if_false, false_or]
      constructor
      · rintro ⟨problem, hdescribes⟩
        by_contra hchars
        have hproblem := hnone.mpr ⟨hnonempty, by simpa using hchars⟩
        rw [(nameProblem?_eq_some_iff _ _).mpr hdescribes] at hproblem
        cases hproblem
      · rintro ⟨c, hc, hforbidden⟩
        cases hfirst : nameProblem? (normalizeName p.name) with
        | some problem => exact ⟨problem, (nameProblem?_eq_some_iff _ _).mp hfirst⟩
        | none =>
            have hallowed := (hnone.mp hfirst).2 c hc
            rw [hforbidden] at hallowed
            cases hallowed

/-- When some task before a place asks for a symbol, one of them is the first one of all. -/
theorem exists_firstAsksFor {p : Payload} {place place' : TaskPlace} {t t' : Task}
    {symbol : String} (hat : p.taskAt? place = some t) (hbefore : place'.Before place)
    (hat' : p.taskAt? place' = some t') (hasks : t'.AsksFor symbol) :
    ∃ first u, first.Before place ∧ p.FirstAsksFor symbol first u := by
  obtain ⟨front, back, hsplit⟩ := List.append_of_mem (taskAt?_eq_some_iff.mp hat)
  have hmem : (place', t') ∈ front :=
    (mem_front_iff hsplit).mpr ⟨taskAt?_eq_some_iff.mp hat', hbefore⟩
  have hsome : (firstClaim? front symbol).isSome = true := by
    rw [firstClaim?, Option.isSome_map, List.find?_isSome]
    exact ⟨(place', t'), hmem, by simpa using hasks⟩
  obtain ⟨first, hfirst⟩ := Option.isSome_iff_exists.mp hsome
  obtain ⟨hearlier, u, hu, -⟩ := (firstClaim?_eq_some_iff hsplit symbol first).mp hfirst
  exact ⟨first.place, u, hearlier, hu⟩

/-- The rules of a task's name in one: it is not blank, its symbol can stand in the generated code,
and no task before it asks for the same symbol. -/
theorem exists_taskName_iff {p : Payload} {place : TaskPlace} {t : Task}
    (hat : p.taskAt? place = some t) :
    (∃ v, p.Breaks v ∧ v.subject = .task place .name) ↔
      Text.isBlankText t.name = true ∨ (∃ problem : Symbol.Problem, problem.Describes t.symbol) ∨
        ∃ place' t', place'.Before place ∧ p.taskAt? place' = some t' ∧ t'.AsksFor t.symbol := by
  constructor
  · rintro ⟨v, hv, hsubject⟩
    cases v with
    | taskNameBlank place' =>
        obtain ⟨u, hu, hblank⟩ := hv
        obtain rfl : place' = place := by simpa [Violation.subject] using hsubject
        obtain rfl := Option.some.inj (hat.symm.trans hu)
        exact Or.inl hblank
    | taskSymbol place' problem =>
        obtain ⟨u, hu, -, hproblem⟩ := hv
        obtain rfl : place' = place := by simpa [Violation.subject] using hsubject
        obtain rfl := Option.some.inj (hat.symm.trans hu)
        exact Or.inr (Or.inl ⟨problem, hproblem⟩)
    | symbolTaken place' name first =>
        obtain ⟨u, t', hu, -, -, -, hbefore, ⟨hat', hasks, -⟩, -⟩ := hv
        obtain rfl : place' = place := by simpa [Violation.subject] using hsubject
        obtain rfl := Option.some.inj (hat.symm.trans hu)
        exact Or.inr (Or.inr ⟨first.place, t', hbefore, hat', hasks⟩)
    | _ => simp [Violation.subject] at hsubject
  · intro h
    cases hblank : Text.isBlankText t.name with
    | true => exact ⟨.taskNameBlank place, ⟨t, hat, hblank⟩, rfl⟩
    | false =>
        by_cases hproblem : ∃ problem : Symbol.Problem, problem.Describes t.symbol
        · obtain ⟨problem, hdescribes⟩ := hproblem
          exact ⟨.taskSymbol place problem, ⟨t, hat, hblank, hdescribes⟩, rfl⟩
        · rcases h with h | h | ⟨place', t', hbefore, hat', hasks⟩
          · rw [hblank] at h
            cases h
          · exact absurd h hproblem
          · obtain ⟨first, u, hearlier, hu⟩ := exists_firstAsksFor hat hbefore hat' hasks
            refine ⟨.symbolTaken place t.name ⟨t.symbol, u.name, first⟩, ?_, rfl⟩
            exact ⟨t, u, hat, rfl, hblank, not_exists.mp hproblem, hearlier, hu, rfl⟩

/-- Each field stands once at most in a report. -/
theorem nodup_fields_violations (p : Payload) : (p.violations.map Violation.field).Nodup := by
  rw [List.Nodup, List.pairwise_map]
  refine p.pairwise_violations.imp fun {v w} hprecedes hfield => ?_
  rw [← Violation.field_subject, ← Violation.field_subject, Subject.field_injective.eq_iff]
    at hfield
  rw [Violation.Precedes, hfield] at hprecedes
  exact List.lt_irrefl _ hprecedes

/-- Validation fails exactly when the payload breaks a rule, and its report holds the broken rules
in the order of the document, each field once at most. The name of a project or of a task is
reported whenever one of its rules is broken, and a symbol that is taken is laid to the first task
that asks for it. -/
theorem report_of_validate (p : Payload) :
    ((∃ vs, p.validate = .error vs) ↔ ∃ v, p.Breaks v) ∧
      (∀ vs, p.validate = .error vs ↔
        vs ≠ [] ∧ (∀ v, v ∈ vs ↔ p.Breaks v) ∧ vs.Pairwise Violation.Precedes) ∧
      (∀ vs, p.validate = .error vs → (vs.map Violation.field).Nodup) ∧
      ((∃ v, p.Breaks v ∧ v.field = "nomprojet") ↔
        Text.isBlankText p.name = true ∨
          ∃ c ∈ (normalizeName p.name).toList, isNameChar c = false) ∧
      (∀ place t, p.taskAt? place = some t →
        ((∃ v, p.Breaks v ∧ v.field = place.path ++ ".name") ↔
          Text.isBlankText t.name = true ∨
            (t.symbol = "" ∨ (t.symbol.toList.head?.any Char.isDigit) = true ∨
              t.symbol ∈ Symbol.keywords ∨ t.symbol ∈ Symbol.reserved) ∨
            ∃ place' t', place'.Before place ∧ p.taskAt? place' = some t' ∧
              t'.AsksFor t.symbol)) ∧
      (∀ place name first, p.Breaks (.symbolTaken place name first) →
        ∃ t', p.FirstAsksFor (Symbol.ofName name) first.place t' ∧
          (Violation.symbolTaken place name first).message =
            "task '" ++ name ++ "' sanitizes to '" ++ Symbol.ofName name ++
              "', which is already used by '" ++ t'.name ++ "' (" ++ first.place.path ++ ")") := by
  have herror : ∀ vs, p.validate = .error vs ↔
      vs ≠ [] ∧ (∀ v, v ∈ vs ↔ p.Breaks v) ∧ vs.Pairwise Violation.Precedes := fun vs => by
    rw [validate_eq_error_iff, eq_violations_iff]
  refine ⟨?_, herror, ?_, ?_, ?_, ?_⟩
  · constructor
    · rintro ⟨vs, hvs⟩
      obtain ⟨hne, hmem, -⟩ := (herror vs).mp hvs
      obtain ⟨v, hv⟩ := List.exists_mem_of_ne_nil vs hne
      exact ⟨v, (hmem v).mp hv⟩
    · rintro ⟨v, hv⟩
      have hmem := (p.mem_violations_iff v).mpr hv
      exact ⟨p.violations, (p.validate_eq_error_iff _).mpr ⟨List.ne_nil_of_mem hmem, rfl⟩⟩
  · intro vs hvs
    rw [((p.validate_eq_error_iff vs).mp hvs).2]
    exact p.nodup_fields_violations
  · have hfield := breaks_iff_of_field (p := p) (s := .projectName)
    rw [Subject.field] at hfield
    rw [hfield, p.exists_projectName_iff]
  · intro place t hat
    have hfield := breaks_iff_of_field (p := p) (s := .task place .name)
    rw [Subject.field, TaskPart.suffix] at hfield
    rw [hfield, exists_taskName_iff hat, Symbol.exists_describes_iff]
  · rintro place name first ⟨t, t', -, rfl, -, -, -, hfirst, hclaim⟩
    refine ⟨t', hfirst, ?_⟩
    rw [hclaim]
    simp only [Violation.message, Claim.holder, String.append_assoc]
    rfl

/-- A payload with a step without tasks, and two tasks that ask for one symbol and break other rules
besides. -/
def colliding : Payload where
  name := "demo"
  robin := "rbta"
  pipeline := [
    { id := "s1" },
    { id := "s2", tasks := [
      { id := "t1", name := "load a", priority := "urgent" },
      { id := "t2", name := "load-a", poolSlots := 9 }] }]

/-- A payload that breaks four rules is refused with one violation for each, in the order of their
fields. -/
theorem report_of_validate_colliding :
    colliding.validate = .error [.noTasks 0, .priorityUnknown ⟨1, 0⟩ "urgent",
        .slotsOutOfRange ⟨1, 1⟩ 9, .symbolTaken ⟨1, 1⟩ "load-a" ⟨"load_a", "load a", ⟨1, 0⟩⟩] ∧
      (∃ v, colliding.Breaks v ∧ v.field = (TaskPlace.mk 1 1).path ++ ".name") ∧
        (∃ t', colliding.FirstAsksFor "load_a" ⟨1, 0⟩ t') ∧ ¬colliding.Breaks .robinBlank := by
  have h : colliding.validate = .error [.noTasks 0, .priorityUnknown ⟨1, 0⟩ "urgent",
      .slotsOutOfRange ⟨1, 1⟩ 9,
      .symbolTaken ⟨1, 1⟩ "load-a" ⟨"load_a", "load a", ⟨1, 0⟩⟩] := by rfl
  obtain ⟨-, hreport, -, -, hname, hfirst⟩ := report_of_validate colliding
  obtain ⟨-, hmem, -⟩ := (hreport _).mp h
  refine ⟨h, ?_, ?_, ?_⟩
  · refine (hname ⟨1, 1⟩ _ rfl).mpr (Or.inr (Or.inr ⟨⟨1, 0⟩, _, ?_, rfl, ?_⟩))
    · exact Or.inr ⟨rfl, Nat.zero_lt_one⟩
    · exact ⟨by decide, by decide⟩
  · obtain ⟨t', ht', -⟩ := hfirst ⟨1, 1⟩ "load-a" ⟨"load_a", "load a", ⟨1, 0⟩⟩
      ((hmem _).mp (by decide))
    exact ⟨t', ht'⟩
  · intro hblank
    exact absurd ((hmem _).mpr hblank) (by decide)

end Payload

end DagScaffold
