import Mathlib
import DagScaffold.CommandLine.Run
import DagScaffold.Manifest.Recovery
import DagScaffold.Proofs.ManifestReading
import DagScaffold.Proofs.Validity
import DagScaffold.Proofs.Variables

/-!
# Data paths of projects that are saved again

A data path is taken from the root of the workspace when it is written, and what was written is
taken from it once more after the project is loaded. A path from the root of all files stays as it
is, so the second time changes nothing where the first one gave such a path: where the data path or
the root of the workspace was one already. Everywhere else each time puts the root of the workspace
in front again.

* `Settings.Accepted` : the settings that a command can have;
* `Settings.dataPath_dataPath_eq_iff` : the paths that the second time leaves alone;
* `dataPaths_of_read_write` : the data paths in the manifests of a project and of what is loaded
  from it.
-/

namespace DagScaffold

open DagScaffold.Files

namespace Settings

/-! ## The root of the workspace -/

/-- Whether a command can have the settings: they are those of an environment, with another root of
the workspace if the command line gives one. -/
def Accepted (settings : Settings) : Prop :=
  ∃ env base root, ofEnvironment env = .ok base ∧
    (∀ path, root = some path → CommandLine.Slot.root.accepts path = true) ∧
    settings = CommandLine.withRoot base root

theorem workspaceRoot_ne_of_ofEnvironment {env : String → Option String} {s : Settings}
    (h : ofEnvironment env = .ok s) : s.workspaceRoot ≠ "" :=
  ((ofEnvironment_eq_ok_iff env s).mp h).workspaceRoot.ne_empty (by decide)

/-- The root of the workspace of a command is not empty. -/
theorem Accepted.workspaceRoot_ne {settings : Settings} (h : Accepted settings) :
    settings.workspaceRoot ≠ "" := by
  obtain ⟨env, base, root, hbase, hroot, rfl⟩ := h
  cases root with
  | none => exact workspaceRoot_ne_of_ofEnvironment hbase
  | some path => exact of_decide_eq_true (hroot path rfl)

/-! ## Paths taken from it -/

/-- What stands before a path that is taken from the root of the workspace. -/
theorem exists_toList_dataPath {s : Settings} {path : String} (hpath : isAbsolute path = false)
    (hroot : s.workspaceRoot ≠ "") :
    ∃ front, (s.dataPath path).toList = front ++ path.toList ∧ '/' ∈ front ∧
      (front.head? = some '/' ↔ isAbsolute s.workspaceRoot = true) := by
  have hne : s.workspaceRoot.toList ≠ [] := mt String.toList_eq_nil_iff.mp hroot
  unfold dataPath join
  rw [hpath, if_neg Bool.false_ne_true, Bool.false_or, if_neg (by simpa using hroot)]
  split_ifs with hslash
  · exact ⟨s.workspaceRoot.toList, String.toList_append, List.mem_of_getLast? hslash,
      (decide_eq_true_iff).symm⟩
  · refine ⟨s.workspaceRoot.toList ++ ['/'], ?_, List.mem_concat_self, ?_⟩
    · rw [String.toList_append, String.toList_append]
      rfl
    · rw [List.head?_append_of_ne_nil _ hne]
      exact (decide_eq_true_iff).symm

theorem dataPath_of_isAbsolute {s : Settings} {path : String} (h : isAbsolute path = true) :
    s.dataPath path = path :=
  if_pos h

/-- A path is one from the root of all files after it was taken from the root of the workspace when
one of the two is. -/
theorem isAbsolute_dataPath (s : Settings) (path : String) :
    isAbsolute (s.dataPath path) = (isAbsolute path || isAbsolute s.workspaceRoot) := by
  cases hpath : isAbsolute path with
  | true => rw [dataPath_of_isAbsolute hpath, hpath, Bool.true_or]
  | false =>
      rw [Bool.false_or]
      by_cases hroot : s.workspaceRoot = ""
      · have hsame : s.dataPath path = path := by
          simp [dataPath, join, hroot]
        rw [hsame, hpath, hroot]
        rfl
      · obtain ⟨front, hfront, hslash, hhead⟩ := exists_toList_dataPath hpath hroot
        rw [Bool.eq_iff_iff, ← hhead, isAbsolute, decide_eq_true_iff, hfront,
          List.head?_append_of_ne_nil _ (List.ne_nil_of_mem hslash)]

/-- An absolute path is written as it is, and no other one. -/
theorem dataPath_eq_self_iff {s : Settings} (hroot : s.workspaceRoot ≠ "") (path : String) :
    s.dataPath path = path ↔ isAbsolute path = true := by
  constructor
  · intro hsame
    by_contra hpath
    obtain ⟨front, hfront, hslash, -⟩ :=
      exists_toList_dataPath (Bool.eq_false_of_not_eq_true hpath) hroot
    rw [hsame, List.self_eq_append_left] at hfront
    rw [hfront] at hslash
    exact List.not_mem_nil hslash
  · exact dataPath_of_isAbsolute

/-- A path that was taken from the root of the workspace is left alone the second time when it or
the root of the workspace is a path from the root of all files. -/
theorem dataPath_dataPath_eq_iff {s : Settings} (hroot : s.workspaceRoot ≠ "") (path : String) :
    s.dataPath (s.dataPath path) = s.dataPath path ↔
      isAbsolute path = true ∨ isAbsolute s.workspaceRoot = true := by
  rw [dataPath_eq_self_iff hroot, isAbsolute_dataPath, Bool.or_eq_true]

end Settings

namespace Manifest

open Yaml Yaml.Written

/-! ## Paths that are read and written again -/

/-- The end of a text does not tell whether it is a path from the root of all files. -/
theorem isAbsolute_asText (s : String) : isAbsolute (asText s) = isAbsolute s := by
  rw [Bool.eq_iff_iff, isAbsolute, isAbsolute, decide_eq_true_iff, decide_eq_true_iff,
    ← head?_dropEndFeeds_eq_some_iff (by decide), dropEndFeeds_asText,
    head?_dropEndFeeds_eq_some_iff (by decide)]

/-- A data path that is read is not empty, since it has a slash. -/
theorem dropEndFeeds_asText_dataPath_ne {settings : Settings} (hroot : settings.workspaceRoot ≠ "")
    (path : String) : dropEndFeeds (asText (settings.dataPath path)).toList ≠ [] := by
  -- the slash is in the path itself or in what stands before it
  have hslash : '/' ∈ (settings.dataPath path).toList := by
    by_cases hpath : isAbsolute path = true
    · rw [Settings.dataPath_of_isAbsolute hpath]
      exact List.mem_of_mem_head? (of_decide_eq_true hpath)
    · obtain ⟨front, hfront, hslash, -⟩ :=
        Settings.exists_toList_dataPath (Bool.eq_false_of_not_eq_true hpath) hroot
      rw [hfront]
      exact List.mem_append_left _ hslash
  rw [dropEndFeeds_asText]
  exact List.ne_nil_of_mem (mem_dropEndFeeds hslash (by decide))

/-- A text that was read is written and read as the same data path when it is a path from the root
of all files. -/
theorem asText_dataPath_asText_eq_iff {settings : Settings} (hroot : settings.workspaceRoot ≠ "")
    {s : String} (hs : dropEndFeeds (asText s).toList ≠ []) :
    asText (settings.dataPath (asText s)) = asText s ↔ isAbsolute s = true := by
  constructor
  · intro hsame
    by_contra hrelative
    rw [← isAbsolute_asText] at hrelative
    obtain ⟨front, hfront, hslash, -⟩ :=
      Settings.exists_toList_dataPath (Bool.eq_false_of_not_eq_true hrelative) hroot
    -- what was put in front is still there without the line feeds at the end
    have hlonger := dropEndFeeds_asText (settings.dataPath (asText s))
    rw [hsame, hfront, dropEndFeeds_append hs, List.self_eq_append_left] at hlonger
    rw [hlonger] at hslash
    exact List.not_mem_nil hslash
  · intro habsolute
    rw [Settings.dataPath_of_isAbsolute ((isAbsolute_asText s).trans habsolute)]
    exact asText_asText s

/-- The value of a data path in the manifest of a project and in that of the project that was loaded
from it. -/
theorem kept_dataPath_again {settings : Settings} (hroot : settings.workspaceRoot ≠ "")
    {path : String} {toggle : Bool} (htoggle : toggle = true) (hpath : path ≠ "")
    {value : Option String}
    (hvalue : value = (kept toggle path (settings.dataPath path)).map asText) :
    (kept value.isSome (value.getD "") (settings.dataPath (value.getD ""))).map asText = value ↔
      isAbsolute path = true ∨ isAbsolute settings.workspaceRoot = true := by
  have hwritten : value = some (asText (settings.dataPath path)) := by
    rw [hvalue, htoggle, kept, if_pos (by simpa using hpath)]
    rfl
  have hfull := dropEndFeeds_asText_dataPath_ne hroot path
  have hne : asText (settings.dataPath path) ≠ "" := by
    intro hempty
    rw [hempty] at hfull
    exact hfull rfl
  rw [hwritten, Option.getD_some, Option.isSome_some, kept, if_pos (by simpa using hne),
    Option.map_some, Option.some.injEq, asText_dataPath_asText_eq_iff hroot hfull,
    Settings.isAbsolute_dataPath, Bool.or_eq_true]

/-- The pools of a project that was loaded can be read again. -/
theorem dividedByFeeds_pools_toConfig {name : String} {m : Manifest} {pools : List String}
    (hpools : ∀ pool ∈ pools, DividedByFeeds pool) (hm : m.pools = pools.map asItem) :
    ∀ pool ∈ (m.toPayload name).toConfig.pools, DividedByFeeds pool := by
  intro pool hpool
  have hmem : pool ∈ m.pools := (Payload.mem_firstMentions.mp hpool).1
  rw [hm] at hmem
  obtain ⟨pool₀, hpool₀, rfl⟩ := List.mem_map.mp hmem
  exact (hpools pool₀ hpool₀).asItem

/-- A project is loaded and the manifest of what was loaded is read: it has the data paths of the
manifest before exactly where these were paths from the root of all files, which is where the data
path of the project or the root of the workspace is one. That is, a path that was taken from the
root of the workspace is left alone the second time in these cases and no others. -/
theorem dataPaths_of_read_write {settings : Settings} (hsettings : settings.Accepted) {c : Config}
    (hpools : ∀ pool ∈ c.pools, DividedByFeeds pool) :
    (∃ m, read (write settings c) = .ok m ∧ ∀ c', (m.toPayload c.name).validate = .ok c' →
      ∃ m', read (write settings c') = .ok m' ∧
        (c.useInput = true → c.inputPath ≠ "" → (m'.inputFolder = m.inputFolder ↔
          isAbsolute c.inputPath = true ∨ isAbsolute settings.workspaceRoot = true)) ∧
        (c.useOutput = true → c.outputPath ≠ "" → (m'.outputFolder = m.outputFolder ↔
          isAbsolute c.outputPath = true ∨ isAbsolute settings.workspaceRoot = true))) ∧
    ∀ path, settings.dataPath (settings.dataPath path) = settings.dataPath path ↔
      isAbsolute path = true ∨ isAbsolute settings.workspaceRoot = true := by
  have hroot := hsettings.workspaceRoot_ne
  refine ⟨⟨_, read_write_asRead hpools, ?_⟩, Settings.dataPath_dataPath_eq_iff hroot⟩
  intro c' hvalid
  obtain ⟨-, rfl⟩ := (Payload.validate_eq_ok_iff _ _).mp hvalid
  refine ⟨_, read_write_asRead (dividedByFeeds_pools_toConfig hpools rfl), ?_, ?_⟩
  · intro huse hpath
    exact kept_dataPath_again hroot huse hpath rfl
  · intro huse hpath
    exact kept_dataPath_again hroot huse hpath rfl

/-- A project that reads a file below the root of the workspace and writes one outside it. -/
def dataProject : Payload where
  name := "demo"
  robin := "rbta"
  useInput := true
  inputPath := "raw/in"
  useOutput := true
  outputPath := "/raw/out"
  pipeline := [{ id := "s1", tasks := [{ id := "t1", name := "extract" }] }]

/-- The settings of a command that is given the root of the workspace from the working directory. -/
def besideSettings : Settings :=
  CommandLine.withRoot {} (some "ws")

theorem accepted_besideSettings : besideSettings.Accepted := by
  refine ⟨fun _ => none, {}, some "ws", by rfl, ?_, rfl⟩
  intro path hpath
  cases hpath
  rfl

theorem dividedByFeeds_dataProject : ∀ pool ∈ dataProject.toConfig.pools, DividedByFeeds pool := by
  decide

/-- A folder that is written below a relative root moves once more with the next save, an absolute
one does not. -/
theorem dataPaths_of_read_write_dataProject :
    besideSettings.Accepted ∧ (∀ pool ∈ dataProject.toConfig.pools, DividedByFeeds pool) ∧
      ∃ m c' m', read (write besideSettings dataProject.toConfig) = .ok m ∧
        (m.toPayload "demo").validate = .ok c' ∧ read (write besideSettings c') = .ok m' ∧
        m'.inputFolder ≠ m.inputFolder ∧ m'.outputFolder = m.outputFolder := by
  refine ⟨accepted_besideSettings, dividedByFeeds_dataProject, ?_⟩
  obtain ⟨⟨m, hread, hsaved⟩, -⟩ :=
    dataPaths_of_read_write accepted_besideSettings dividedByFeeds_dataProject
  have hm : m = (recorded besideSettings dataProject.toConfig).asRead := by
    rw [read_write_asRead dividedByFeeds_dataProject] at hread
    exact (Except.ok.inj hread).symm
  have hvalid : (m.toPayload "demo").validate = .ok (m.toPayload "demo").toConfig := by
    rw [hm]
    decide +kernel
  obtain ⟨m', hread', hinput, houtput⟩ := hsaved _ hvalid
  refine ⟨m, _, m', hread, hvalid, hread', ?_, ?_⟩
  · exact (not_congr (hinput rfl (by decide))).mpr (by decide)
  · exact (houtput rfl (by decide)).mpr (by decide)

/-- The data paths of a validated project are not always left alone when it is loaded and saved
again. -/
theorem not_forall_inputFolder_eq :
    ¬∀ (settings : Settings) (p : Payload) (c : Config) (m : Manifest) (c' : Config)
      (m' : Manifest),
      settings.Accepted → p.validate = .ok c → c.useInput = true → c.inputPath ≠ "" →
        read (write settings c) = .ok m → (m.toPayload c.name).validate = .ok c' →
          read (write settings c') = .ok m' → m'.inputFolder = m.inputFolder := by
  intro h
  have hread := @read_write_asRead besideSettings dataProject.toConfig dividedByFeeds_dataProject
  have hread' := @read_write_asRead besideSettings
    (((recorded besideSettings dataProject.toConfig).asRead).toPayload "demo").toConfig
    (dividedByFeeds_pools_toConfig dividedByFeeds_dataProject rfl)
  have hsame := h besideSettings dataProject dataProject.toConfig _ _ _ accepted_besideSettings
    (by rfl) rfl (by decide) hread (by decide +kernel) hread'
  exact absurd hsame (by decide +kernel)

end Manifest

end DagScaffold
