import Mathlib
import DagScaffold.Settings

/-!
# Settings by the variables of the environment

Each variable of the environment has a field of the settings, and no other variable touches it. So
settings are read from an environment exactly when every variable that is set can be read, and every
field is what its own variable is read as, or the default one when that variable is not set.

* `Given`, `FollowsVariables` : fields by their variables;
* `ofEnvironment_eq_ok_iff` : the settings that are read from an environment.
-/

namespace DagScaffold.Settings

/-! ## One variable -/

/-- A field by its variable: what the value is read as, or the default when the variable is not
set. -/
def Given {α : Type} (read : String → Except Invalid α) (default : α) (value : Option String)
    (x : α) : Prop :=
  value.elim (x = default) fun text => read text = .ok x

/-- Settings in which a field is set by its variable, when it was `old` before. -/
theorem elim_map_eq_ok_iff {α : Type} (read : String → Except Invalid α) (put : α → Settings)
    (old : α) (value : Option String) (s : Settings) :
    value.elim (.ok (put old)) (fun text => (read text).map put) = .ok s ↔
      ∃ x, Given read old value x ∧ put x = s := by
  cases value with
  | none =>
      constructor
      · intro h
        exact ⟨old, rfl, Except.ok.inj h⟩
      · rintro ⟨x, hx, rfl⟩
        obtain rfl : x = old := hx
        rfl
  | some text =>
      show (read text).map put = .ok s ↔ ∃ x, read text = .ok x ∧ put x = s
      cases read text with
      | error reason => simp [Except.map]
      | ok x => simp [Except.map]

/-- A value that is taken is not empty. -/
theorem ne_empty_of_nonBlank {v : Variable} {value x : String} (h : nonBlank v value = .ok x) :
    x ≠ "" := by
  unfold nonBlank at h
  dsimp only at h
  split_ifs at h with hblank
  cases h
  exact hblank

/-- A field for which blanks do not count is not empty. -/
theorem Given.ne_empty {v : Variable} {default : String} {value : Option String} {x : String}
    (h : Given (nonBlank v) default value x) (hdefault : default ≠ "") : x ≠ "" := by
  cases value with
  | none =>
      obtain rfl : x = default := h
      exact hdefault
  | some text => exact ne_empty_of_nonBlank h

/-! ## All variables -/

/-- Settings of which every field is given by its own variable. -/
structure FollowsVariables (env : String → Option String) (s : Settings) : Prop where
  workspaceRoot : Given (nonBlank .workspaceRoot) "/home/jovyan/workspaces"
    (env "DAG_FORGE_WORKSPACE_ROOT") s.workspaceRoot
  condaEnvsRoot : Given (nonBlank .condaEnvsRoot) "/etc/conda/envs/custom"
    (env "DAG_FORGE_CONDA_ENVS_ROOT") s.condaEnvsRoot
  defaultEnvName : Given (nonBlank .defaultEnv) "airflow-env"
    (env "DAG_FORGE_DEFAULT_ENV") s.defaultEnvName
  defaultPool : Given (nonBlank .defaultPool) "default_pool"
    (env "DAG_FORGE_DEFAULT_POOL") s.defaultPool
  startDate : Given (dateValue .startDate) defaultStartDate (env "DAG_FORGE_START_DATE") s.startDate

theorem bind_eq_ok_iff {α β : Type} (x : Except Invalid α) (f : α → Except Invalid β) (b : β) :
    x >>= f = .ok b ↔ ∃ a, x = .ok a ∧ f a = .ok b := by
  cases x with
  | error reason => exact ⟨fun h => (nomatch h), fun ⟨_, h, _⟩ => (nomatch h)⟩
  | ok a => exact ⟨fun h => ⟨a, rfl, h⟩, fun ⟨_, h, hf⟩ => Except.ok.inj h ▸ hf⟩

/-- The settings are made by the variables one after the other. -/
theorem ofEnvironment_eq_foldlM (env : String → Option String) :
    ofEnvironment env =
      allVariables.foldlM (fun s v => (env v.key).elim (.ok s) (s.set v)) {} := by
  unfold ofEnvironment
  congr 1
  funext s v
  cases env v.key <;> rfl

/-- The settings of an environment are those that follow its variables. -/
theorem ofEnvironment_eq_ok_iff (env : String → Option String) (s : Settings) :
    ofEnvironment env = .ok s ↔ FollowsVariables env s := by
  -- the settings after a variable, whatever they were before
  have hroot (s s' : Settings) :
      (env Variable.workspaceRoot.key).elim (.ok s) (s.set .workspaceRoot) = .ok s' ↔
        ∃ x, Given (nonBlank .workspaceRoot) s.workspaceRoot (env "DAG_FORGE_WORKSPACE_ROOT") x ∧
        { s with workspaceRoot := x } = s' :=
    elim_map_eq_ok_iff _ (fun x => { s with workspaceRoot := x }) s.workspaceRoot _ s'
  have henvs (s s' : Settings) :
      (env Variable.condaEnvsRoot.key).elim (.ok s) (s.set .condaEnvsRoot) = .ok s' ↔
        ∃ x, Given (nonBlank .condaEnvsRoot) s.condaEnvsRoot (env "DAG_FORGE_CONDA_ENVS_ROOT") x ∧
        { s with condaEnvsRoot := x } = s' :=
    elim_map_eq_ok_iff _ (fun x => { s with condaEnvsRoot := x }) s.condaEnvsRoot _ s'
  have hname (s s' : Settings) : (env Variable.defaultEnv.key).elim (.ok s) (s.set .defaultEnv) =
      .ok s' ↔ ∃ x, Given (nonBlank .defaultEnv) s.defaultEnvName (env "DAG_FORGE_DEFAULT_ENV") x ∧
        { s with defaultEnvName := x } = s' :=
    elim_map_eq_ok_iff _ (fun x => { s with defaultEnvName := x }) s.defaultEnvName _ s'
  have hpool (s s' : Settings) : (env Variable.defaultPool.key).elim (.ok s) (s.set .defaultPool) =
      .ok s' ↔ ∃ x, Given (nonBlank .defaultPool) s.defaultPool (env "DAG_FORGE_DEFAULT_POOL") x ∧
        { s with defaultPool := x } = s' :=
    elim_map_eq_ok_iff _ (fun x => { s with defaultPool := x }) s.defaultPool _ s'
  have hdate (s s' : Settings) : (env Variable.startDate.key).elim (.ok s) (s.set .startDate) =
      .ok s' ↔ ∃ x, Given (dateValue .startDate) s.startDate (env "DAG_FORGE_START_DATE") x ∧
        { s with startDate := x } = s' :=
    elim_map_eq_ok_iff _ (fun x => { s with startDate := x }) s.startDate _ s'
  rw [ofEnvironment_eq_foldlM, allVariables]
  simp only [List.foldlM_cons, List.foldlM_nil, bind_eq_ok_iff, hroot, henvs, hname, hpool, hdate,
    exists_exists_and_eq_and]
  constructor
  · rintro ⟨root, hroot, envs, henvs, name, hname, pool, hpool, date, hdate, hs⟩
    obtain rfl := Except.ok.inj hs
    exact ⟨hroot, henvs, hname, hpool, hdate⟩
  · rintro ⟨hroot, henvs, hname, hpool, hdate⟩
    exact ⟨_, hroot, _, henvs, _, hname, _, hpool, _, hdate, rfl⟩

end DagScaffold.Settings
