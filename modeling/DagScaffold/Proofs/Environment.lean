import Mathlib
import DagScaffold.Dag.File
import DagScaffold.Manifest.Recovery
import DagScaffold.Project.Validation
import DagScaffold.Proofs.Fronts
import DagScaffold.Proofs.ManifestKeys
import DagScaffold.Proofs.ManifestReading

/-!
# The environment in the manifest and in the DAG

The manifest of a project and its DAG both name an environment, each with a condition of its own.
They name the same one when the manifest names one at all. When it names none, the DAG has the
default one if the project does without, and an empty name if the project has an environment of
which the name is empty.

* `writtenText?`, `HasKey` : the text that a manifest writes for a key, and the keys that its text
  has;
* `assigned` : the expressions that statements assign to a name;
* `assigned_environment` : the environment in both, before and after the manifest is read.
-/

namespace DagScaffold.Manifest

open Yaml

/-! ## What is written for a key -/

/-- The text of an entry that has the given key. -/
def Entry.textFor? (key : String) : Entry → Option String
  | .text key' value => if key' = key then some value else none
  | _ => none

/-- The text that entries write for a key. -/
def writtenText? (key : String) (es : List Entry) : Option String :=
  es.findSome? (Entry.textFor? key)

/-- Of two values for a key the front one counts. -/
theorem writtenText?_append (key : String) (es es' : List Entry) :
    writtenText? key (es ++ es') = (writtenText? key es).or (writtenText? key es') :=
  List.findSome?_append

theorem writtenText?_optionalText (key : String) (toggle : Bool) (key' value written : String) :
    writtenText? key (optionalText toggle key' value written) =
      if key' = key then kept toggle value written else none := by
  unfold optionalText kept
  split_ifs with hon hkey hkey
  · simp [writtenText?, Entry.textFor?, hkey]
  · simp [writtenText?, Entry.textFor?, hkey]
  · rfl
  · rfl

theorem writtenText?_optionalFlag (key : String) (flag : Bool) (key' : String) :
    writtenText? key (optionalFlag flag key') = none := by
  cases flag <;> rfl

/-- The manifest writes the name of the environment when the project has one that is not empty. -/
theorem writtenText?_envName (settings : Settings) (config : Config) :
    writtenText? "env_name" (entries settings config) =
      kept config.useConda config.condaEnv config.condaEnv := by
  have hfixed : writtenText? "env_name" [.text "folder" config.folder,
      .word "stage" config.stage.name, .text "ld_data" (Text.toUpper config.dataDomain),
      .text "persoid" config.owner] = none := by rfl
  have hpools : writtenText? "env_name"
      (if config.pools.isEmpty then [] else [.list "pools" config.pools]) = none := by
    split_ifs <;> rfl
  simp only [entries, writtenText?_append, writtenText?_optionalText, writtenText?_optionalFlag,
    hfixed, hpools, String.reduceEq, if_false, if_true, Option.none_or, Option.or_none]

/-! ## The keys of a text -/

/-- Whether a line that does not start with a blank opens with a key and a colon. -/
def HasKey (text key : String) : Prop :=
  ∃ line ∈ openLines Text.isBlank text, (key ++ ":").toList <+: line

/-- A line opens with one key only. -/
theorem KeyLine.Opens.isPrefix_iff {k : KeyLine} {line : List Char} (h : k.Opens line)
    {key : String} (hkey : ':' ∉ key.toList) (hk : ':' ∉ k.key.toList) :
    (key ++ ":").toList <+: line ↔ key = k.key := by
  -- whatever is known of the line, the key and a colon come first
  obtain ⟨back, rfl⟩ : ∃ back, line = k.key.toList ++ ([':'] ++ back) := by
    unfold KeyLine.Opens at h
    split at h
    · exact ⟨_, by rw [h, String.toList_append, String.toList_append, List.append_assoc]; rfl⟩
    · obtain ⟨back, rfl⟩ := h
      exact ⟨' ' :: back, by rw [String.toList_append, List.append_assoc]; rfl⟩
  constructor
  · rintro ⟨rest, hrest⟩
    rw [String.toList_append, List.append_assoc] at hrest
    have hsplit := congrArg (splitAtFirst? [':']) hrest
    rw [splitAtFirst?_append back hk] at hsplit
    have hfront : splitAtFirst? [':'] (key.toList ++ (":".toList ++ rest)) =
        some (key.toList, rest) :=
      splitAtFirst?_append rest hkey
    rw [hfront] at hsplit
    injection hsplit with hparts
    injection hparts with hchars
    exact String.toList_inj.mp hchars
  · rintro rfl
    exact ⟨back, by rw [String.toList_append, List.append_assoc]; rfl⟩

/-- A line opens with a key and a colon when the key is among those of the lines. -/
theorem exists_isPrefix_iff {ks : List KeyLine} {lines : List (List Char)}
    (h : List.Forall₂ KeyLine.Opens ks lines) (hks : ∀ k ∈ ks, ':' ∉ k.key.toList) {key : String}
    (hkey : ':' ∉ key.toList) :
    (∃ line ∈ lines, (key ++ ":").toList <+: line) ↔ key ∈ ks.map KeyLine.key := by
  induction h with
  | nil => simp
  | cons hopens _ ih =>
      obtain ⟨hk, hks⟩ := List.forall_mem_cons.mp hks
      rw [List.exists_mem_cons_iff, hopens.isPrefix_iff hkey hk, ih hks, List.map_cons,
        List.mem_cons]

/-- The keys of a manifest's text are those of its entries. -/
theorem hasKey_write_iff (settings : Settings) (config : Config) {key : String}
    (hkey : ':' ∉ key.toList) :
    HasKey (write settings config) key ↔ key ∈ (keyLines config).map KeyLine.key := by
  have hlines : List.Forall₂ KeyLine.Opens (keyLines config)
      (openLines Text.isBlank (write settings config)) := by
    apply forall₂_opens_openLines rfl isBlank_of_isAlpha
    intro s _
    exact (hangs_form rfl isBlank_of_isLineEnd s).dropEndFeeds
  have hcolon : ∀ k ∈ keyLines config, ':' ∉ k.key.toList := by
    intro k hk
    have hall : ∀ key ∈ allKeys, ':' ∉ key.toList := by decide
    exact hall k.key ((sublist_keyLines config).subset (List.mem_map_of_mem hk))
  exact exists_isPrefix_iff hlines hcolon hkey

/-- The text of a manifest has the key of the environment when something is written for it. -/
theorem hasKey_envName_iff (settings : Settings) (config : Config) :
    HasKey (write settings config) "env_name" ↔
      (writtenText? "env_name" (entries settings config)).isSome = true := by
  have hmem : "env_name" ∈ (keyLines config).map KeyLine.key ↔
      config.useConda ∧ config.condaEnv ≠ "" := by
    simp [keyLines, apply_ite (List.map KeyLine.key)]
  rw [hasKey_write_iff settings config (by decide), hmem, writtenText?_envName, kept]
  split_ifs with hon
  · simpa using hon
  · simpa using hon

/-- The environment that is read is the one that was written. -/
theorem envName_of_read_write {settings : Settings} {config : Config}
    (hpools : ∀ pool ∈ config.pools, DividedByFeeds pool) {m : Manifest}
    (h : read (write settings config) = .ok m) :
    m.envName = (writtenText? "env_name" (entries settings config)).map asText := by
  rw [read_write_asRead hpools] at h
  obtain rfl := Except.ok.inj h
  rw [writtenText?_envName]
  rfl

end DagScaffold.Manifest

namespace DagScaffold.Dag

open Manifest

/-! ## What is assigned -/

/-- The expression that a statement assigns to a name. -/
def Statement.assigned? (target : String) : Statement → Option String
  | .assign target' expression => if target' = target then some expression else none
  | _ => none

/-- The expressions that statements assign to a name, in their order. -/
def assigned (target : String) (ss : List Statement) : List String :=
  ss.filterMap (Statement.assigned? target)

/-- Statements assign what those before and those after assign. -/
theorem assigned_append (target : String) (ss ss' : List Statement) :
    assigned target (ss ++ ss') = assigned target ss ++ assigned target ss' :=
  List.filterMap_append

theorem assigned_imports (target : String) (config : Config) :
    assigned target (imports config) = [] := by
  unfold imports taskImport
  split_ifs <;> rfl

theorem assigned_operators (target : String) (settings : Settings) (config : Config) :
    assigned target (operators settings config) = [] := by
  unfold assigned operators
  rw [List.filterMap_flatMap]
  apply List.flatMap_eq_nil_iff.mpr
  intro task _
  rfl

theorem assigned_flow (target : String) (config : Config) : assigned target (flow config) = [] := by
  unfold assigned flow
  rw [List.filterMap_cons_none rfl, List.filterMap_map]
  apply List.filterMap_eq_nil_iff.mpr
  intro e _
  rfl

/-- The environment of a DAG is assigned once. -/
theorem assigned_statements (settings : Settings) (config : Config) :
    assigned "custom_env_name" (statements settings config) =
      [double (environmentName settings config)] := by
  rw [statements, assigned_append, assigned_append, assigned_append, assigned_imports,
    assigned_operators, assigned_flow, List.append_nil, List.append_nil, List.nil_append]
  rfl

/-! ## The environment of both -/

/-- The environment of a DAG by what the manifest writes. -/
theorem environmentName_eq (settings : Settings) (config : Config) :
    environmentName settings config =
      (writtenText? "env_name" (entries settings config)).getD
        (if config.useConda then "" else settings.defaultEnvName) := by
  rw [writtenText?_envName, kept, environmentName]
  cases config.useConda with
  | false => rfl
  | true =>
      -- the manifest leaves an empty name out, and the DAG does not
      by_cases hempty : config.condaEnv = ""
      · rw [hempty]
        rfl
      · simp [hempty]

/-- A project that was made from a manifest has its environment, and does without one when the
manifest has none. -/
theorem environmentName_of_toPayload {settings : Settings} {name : String} {m : Manifest}
    {c : Config} (h : (m.toPayload name).validate = .ok c) :
    environmentName settings c = m.envName.getD settings.defaultEnvName := by
  obtain ⟨-, rfl⟩ := (Payload.validate_eq_ok_iff _ _).mp h
  show (if m.envName.isSome then m.envName.getD Payload.defaultCondaEnv
    else settings.defaultEnvName) = _
  cases m.envName <;> rfl

/-- The DAG of a project assigns one environment. It is the one that the manifest writes when the
text of the manifest has the key of the environment. When it has not, it is the default one if the
project does without an environment, and the empty name if it has one. The DAG of a project that was
made from a manifest has the environment that was read, and the default one when there was none.
What is read from the manifest of a project is what was written, as far as the lines of the pools
are divided by line feeds. -/
theorem assigned_environment (settings : Settings) (c : Config) :
    assigned "custom_env_name" (statements settings c) =
      [double ((writtenText? "env_name" (entries settings c)).getD
        (if c.useConda then "" else settings.defaultEnvName))] ∧
    (HasKey (write settings c) "env_name" ↔
      (writtenText? "env_name" (entries settings c)).isSome = true) ∧
    (∀ (m : Manifest) (name : String) (c' : Config), (m.toPayload name).validate = .ok c' →
      assigned "custom_env_name" (statements settings c') =
        [double (m.envName.getD settings.defaultEnvName)]) ∧
    ((∀ pool ∈ c.pools, Yaml.DividedByFeeds pool) → ∃ m, read (write settings c) = .ok m ∧
      m.envName = (writtenText? "env_name" (entries settings c)).map Yaml.asText) := by
  refine ⟨?_, hasKey_envName_iff settings c, fun m name c' h => ?_, fun hpools => ?_⟩
  · rw [assigned_statements, environmentName_eq]
  · rw [assigned_statements, environmentName_of_toPayload h]
  · have hread := @read_write_asRead settings c hpools
    exact ⟨_, hread, envName_of_read_write hpools hread⟩

/-- A project with an environment of which the name is empty. -/
def namelessEnvironment : Payload where
  name := "demo"
  robin := "rbta"
  useConda := true
  condaEnv := ""
  pipeline := [{ id := "s1", tasks := [{ id := "t1", name := "extract" }] }]

/-- A project with an environment that has a name. -/
def namedEnvironment : Payload :=
  { namelessEnvironment with condaEnv := "airflow-ml-3.11", pools := ["gpu\npool"] }

/-- The environment of a project is in its manifest and in the DAG of the project that is made from
it. -/
theorem assigned_environment_namedEnvironment :
    (∀ pool ∈ namedEnvironment.toConfig.pools, Yaml.DividedByFeeds pool) ∧
      ∃ m, read (write {} namedEnvironment.toConfig) = .ok m ∧
        (m.toPayload "demo").validate = .ok (m.toPayload "demo").toConfig ∧
        assigned "custom_env_name" (statements {} (m.toPayload "demo").toConfig) =
          ["\"airflow-ml-3.11\""] := by
  have hpools : ∀ pool ∈ namedEnvironment.toConfig.pools, Yaml.DividedByFeeds pool := by
    decide
  obtain ⟨-, -, hloaded, hreading⟩ := assigned_environment {} namedEnvironment.toConfig
  obtain ⟨m, hread, hname⟩ := hreading hpools
  have hm : m = (recorded {} namedEnvironment.toConfig).asRead := by
    rw [read_write_asRead hpools] at hread
    exact (Except.ok.inj hread).symm
  have hvalid : (m.toPayload "demo").validate = .ok (m.toPayload "demo").toConfig := by
    rw [hm]
    decide +kernel
  refine ⟨hpools, m, hread, hvalid, ?_⟩
  rw [hloaded m "demo" _ hvalid, hname]
  decide +kernel

/-- The DAG of a validated project does not always have the default environment when the manifest
has none. -/
theorem not_forall_assigned_default :
    ¬∀ (settings : Settings) (p : Payload) (c : Config), p.validate = .ok c →
      assigned "custom_env_name" (statements settings c) =
        [double ((writtenText? "env_name" (entries settings c)).getD settings.defaultEnvName)] := by
  intro h
  have hassigned := h {} namelessEnvironment namelessEnvironment.toConfig (by rfl)
  rw [assigned_statements, writtenText?_envName] at hassigned
  exact absurd hassigned (by decide)

end DagScaffold.Dag
