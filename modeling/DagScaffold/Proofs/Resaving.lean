import Mathlib
import DagScaffold.Proofs.Sessions

/-!
# Projects that are saved again

Saving a project writes its files and removes none. After several saves under one name the folder of
the project has every file that one of them wrote, with the content that the last one of these gave
it. This is what the last save alone would leave behind when the last project calls for all the
files that the ones before it called for, and not otherwise.

* `stored`, `written?` : the files in the folder of a project, and those that a save writes;
* `SavedInTurn` : saves that succeed one after the other;
* `Supplement` : the files that are written for some projects only;
* `stored_of_savedInTurn` : the folder of a project after some saves.
-/

namespace DagScaffold.Store

open DagScaffold.Files

open Disk World

/-! ## The folder of a project -/

/-- The content of the file that is reached from the folder of a project by the given names. -/
def stored (settings : Settings) (name : String) (d : Disk) (names : List String) :
    Option Content :=
  d.content? (d.place (workspace settings) ++ name :: names)

/-- The content that a save gives to the file that is reached by the given names, if it writes
one. -/
def written? (settings : Settings) (c : Config) (names : List String) : Option Content :=
  ((projectFiles settings c).find? fun f => f.path = names).map fun f => .text f.content

/-- There is no file in an empty workspace. -/
theorem EmptyWorkspace.stored_eq_none {settings : Settings} {d : Disk}
    (h : EmptyWorkspace settings d) (name : String) (names : List String) :
    stored settings name d names = none :=
  content?_of_none (h.empty _ ⟨name, names, rfl⟩)

section

variable {settings : Settings} {c : Config} {names : List String}

/-- A save gives a file of the project its content. -/
theorem written?_path {f : ProjectFile} (hf : f ∈ projectFiles settings c) :
    written? settings c f.path = some (.text f.content) := by
  unfold written?
  cases hfind : (projectFiles settings c).find? fun g => g.path = f.path with
  | none =>
      have hnone := List.find?_eq_none.mp hfind f hf
      exact absurd (decide_eq_true rfl) hnone
  | some g =>
      have hpath : g.path = f.path := by simpa using List.find?_some hfind
      have hg := List.mem_of_find?_eq_some hfind
      rw [List.inj_on_of_nodup_map (apart_projectFiles settings c).distinct hg hf hpath]
      rfl

/-- A save writes the files of the project only. -/
theorem isSome_written?_iff :
    (written? settings c names).isSome = true ↔
      names ∈ (projectFiles settings c).map ProjectFile.path := by
  unfold written?
  simp

/-- A save writes no file with the ending of temporary ones. -/
theorem written?_eq_none_of_lastChar? (h : lastChar? names = some 'p') :
    written? settings c names = none := by
  by_contra hne
  obtain ⟨f, hf, rfl⟩ :=
    List.mem_map.mp (isSome_written?_iff.mp (Option.isSome_iff_ne_none.mpr hne))
  exact lastChar?_of_mem_paths (path_mem_paths hf) h

end

/-! ## One save -/

/-- Whether no file in the folder of a project has the ending of temporary ones. -/
def Lasting (settings : Settings) (name : String) (d : Disk) : Prop :=
  ∀ names, lastChar? names = some 'p' → stored settings name d names = none

/-- A save succeeds only under a usable name. -/
theorem usable_of_saveConfig {settings : Settings} {c : Config} {w w' : World} {status : Status}
    (hrun : (saveConfig settings c : ExceptT Failure (StateM World) Status).run w =
      (.ok status, w')) :
    Usable c.name := by
  by_contra hunusable
  obtain ⟨problem, -, hrefused, -⟩ := refused_of_not_usable hunusable
  have hsame := hrun.symm.trans (hrefused settings c w rfl)
  cases (Prod.mk.inj hsame).1

/-- A folder without temporary files has room for those of a save. -/
theorem layout_of_lasting {settings : Settings} {c : Config} (husable : Usable c.name) {d : Disk}
    (hlasting : Lasting settings c.name d) (first : Nat) :
    Layout (Way settings c d) (Temporary settings c d first) (root settings c)
      (projectFiles settings c) d
      first := by
  apply layout_of_content?
  intro f hf n _
  have hnamed := (apart_projectFiles settings c).named f hf
  rw [root_eq_projectFolder settings husable.toIsEntryName,
    place_temporaryPath_projectFolder d settings c.name hnamed]
  exact hlasting _ (lastChar?_temporaryNames [] f.path n)

/-- A save that succeeds gives its files their contents and leaves all others as they are. -/
theorem stored_of_saveConfig {settings : Settings} {c : Config} {w w' : World} {status : Status}
    (hrun : (saveConfig settings c : ExceptT Failure (StateM World) Status).run w =
      (.ok status, w'))
    (hlasting : Lasting settings c.name w.disk) (names : List String) :
    stored settings c.name w'.disk names =
      (written? settings c names).or (stored settings c.name w.disk names) := by
  have husable := usable_of_saveConfig hrun
  have hafter := after_saveConfig_of_layout ((nameProblem?_eq_none_iff_usable c.name).mpr husable)
    (layout_of_lasting husable hlasting w.journal.length)
  rw [After, hrun] at hafter
  have hsaved : Saved (Way settings c w.disk) (projectFolder settings c.name)
      (projectFiles settings c) w.disk w'.disk :=
    root_eq_projectFolder settings husable.toIsEntryName ▸ hafter.2
  have hplace : w'.disk.place (workspace settings) = w.disk.place (workspace settings) :=
    place_congr hsaved.workingDirectory _
  have hfile (f : ProjectFile) : w.disk.place (filePath (projectFolder settings c.name) f) =
      w.disk.place (workspace settings) ++ c.name :: f.path :=
    place_descend_projectFolder w.disk settings c.name f.path
  unfold stored
  rw [hplace]
  by_cases hmem : names ∈ (projectFiles settings c).map ProjectFile.path
  · obtain ⟨f, hf, rfl⟩ := List.mem_map.mp hmem
    obtain ⟨-, -, hat, -⟩ := find_eq_ok (hsaved.found f hf)
    rw [hfile] at hat
    rw [written?_path hf, content?_of_file hat]
    rfl
  · -- a file that is not written is where none of the written ones is
    have hnone : written? settings c names = none := by
      rw [← Option.not_isSome_iff_eq_none, isSome_written?_iff]
      exact hmem
    rw [hnone, Option.none_or]
    apply content?_eq_of_grown
    refine (hsaved.others _ ?_).imp_right And.right
    intro f hf heq
    rw [hfile] at heq
    injection List.append_cancel_left heq with _ hnames
    exact hmem (hnames ▸ List.mem_map_of_mem hf)

/-- A save that succeeds leaves no temporary file. -/
theorem lasting_of_saveConfig {settings : Settings} {c : Config} {w w' : World} {status : Status}
    (hrun : (saveConfig settings c : ExceptT Failure (StateM World) Status).run w =
      (.ok status, w'))
    (hlasting : Lasting settings c.name w.disk) : Lasting settings c.name w'.disk := by
  intro names hlast
  rw [stored_of_saveConfig hrun hlasting, written?_eq_none_of_lastChar? hlast, hlasting names hlast]
  rfl

/-! ## Saves one after the other -/

/-- Whether saving some configurations one after the other succeeds and leads from one world to
another. -/
inductive SavedInTurn (settings : Settings) : List Config → World → World → Prop
  | nil (w : World) : SavedInTurn settings [] w w
  | cons {c : Config} {cs : List Config} {w v w' : World} {status : Status}
    (save : (saveConfig settings c : ExceptT Failure (StateM World) Status).run w = (.ok status, v))
    (rest : SavedInTurn settings cs v w') : SavedInTurn settings (c :: cs) w w'

/-- Of the contents that were given to a file the last one counts. -/
theorem stored_eq_findSome? {settings : Settings} {name : String} {cs : List Config} {w w' : World}
    (h : SavedInTurn settings cs w w') (hnames : ∀ c ∈ cs, c.name = name)
    (hlasting : Lasting settings name w.disk) (names : List String) :
    stored settings name w'.disk names =
      (cs.reverse.findSome? fun c => written? settings c names).or
        (stored settings name w.disk names) := by
  -- induction on the saves, with any folder before the first one
  induction h with
  | nil w => rfl
  | @cons c cs w v w' status hrun _ ih =>
      obtain ⟨rfl, hrest⟩ := List.forall_mem_cons.mp hnames
      rw [ih hrest (lasting_of_saveConfig hrun hlasting), stored_of_saveConfig hrun hlasting,
        List.reverse_cons, List.findSome?_append, List.findSome?_singleton, Option.or_assoc]

/-- All saves succeed where there is room for every project and no call fails by itself. -/
theorem exists_savedInTurn {settings : Settings} {saves : String → Option Config} {w : World}
    (h : Holds settings saves w.disk) (hfaults : Faultless w) {cs : List Config}
    (husable : ∀ c ∈ cs, Usable c.name) : ∃ w', SavedInTurn settings cs w w' := by
  induction cs generalizing saves w with
  | nil => exact ⟨w, .nil w⟩
  | cons c cs ih =>
      obtain ⟨hc, hcs⟩ := List.forall_mem_cons.mp husable
      obtain ⟨hok, hholds, calls, hmakes, -⟩ := holds_saveConfig h hfaults hc
      obtain ⟨w', hrest⟩ := ih hholds (hfaults.of_faults_eq hmakes.faults) hcs
      exact ⟨w', .cons (Prod.ext hok rfl) hrest⟩

/-! ## The files that some projects have -/

/-- A file that is written for the projects that call for it. -/
inductive Supplement where
  | ownEnvironment
  | bundle
  | testConfiguration
  deriving DecidableEq, Repr

namespace Supplement

/-- The path of a file from the folder of its project on. -/
def path : Supplement → List String
  | ownEnvironment => ["airflow-python-311.txt"]
  | bundle => ["BUNDLE_AIRFLOW.txt"]
  | testConfiguration => ["airflow.cfg"]

/-- Whether a project calls for a file. -/
def calledFor (c : Config) : Supplement → Bool
  | ownEnvironment => c.useConda
  | bundle => !c.useConda && c.bundleBase ≠ ""
  | testConfiguration => c.prepareTests

/-- The files that some projects have are different. -/
theorem path_injective : Function.Injective path := by
  intro s s' h
  cases s <;> cases s' <;> first | rfl | exact absurd h (by decide)

end Supplement

/-- The paths of the files that a project of the given name always has. -/
def lastingPaths (c : Config) : List (List String) :=
  [[Manifest.fileName], [c.dagFile], TaskModule.path, ["src", "__init__.py"], ["README.md"],
    [".gitignore"], [".cicd", "pipeline.cicd.yaml"]]

/-- A project has a file about its environment or one about its bundle, when it calls for it. -/
theorem mem_environmentFiles_iff {c : Config} {names : List String} :
    names ∈ (Companion.environmentFiles c).map ProjectFile.path ↔
      Supplement.ownEnvironment.calledFor c = true ∧ Supplement.ownEnvironment.path = names ∨
        Supplement.bundle.calledFor c = true ∧ Supplement.bundle.path = names := by
  unfold Companion.environmentFiles
  split_ifs with hconda hbundle
  · simp [Supplement.calledFor, Supplement.path, hconda, @eq_comm _ names]
  · have hcalled : Supplement.bundle.calledFor c = true := by
      simp [Supplement.calledFor, hconda, hbundle]
    rw [hcalled]
    simp [Supplement.calledFor, Supplement.path, hconda, @eq_comm _ names]
  · simp [Supplement.calledFor, hconda, not_not.mp hbundle]

/-- The files of a project are those that it always has and those that it calls for. -/
theorem mem_map_path_iff {settings : Settings} {c : Config} {names : List String} :
    names ∈ (projectFiles settings c).map ProjectFile.path ↔
      names ∈ lastingPaths c ∨ ∃ s : Supplement, s.calledFor c = true ∧ s.path = names := by
  have hsplit : (projectFiles settings c).map ProjectFile.path = lastingPaths c ++
      (Companion.environmentFiles c).map ProjectFile.path ++
        if c.prepareTests then [Supplement.testConfiguration.path] else [] := by
    unfold projectFiles Companion.files
    simp only [List.map_append, apply_ite (List.map ProjectFile.path)]
    rfl
  have htests : names ∈ (if c.prepareTests then [Supplement.testConfiguration.path] else []) ↔
      Supplement.testConfiguration.calledFor c = true ∧
        Supplement.testConfiguration.path = names := by
    cases htests : c.prepareTests <;> simp [Supplement.calledFor, htests, eq_comm]
  rw [hsplit, List.mem_append, List.mem_append, mem_environmentFiles_iff, htests, or_assoc,
    or_assoc]
  refine or_congr_right ?_
  constructor
  · rintro (h | h | h)
    · exact ⟨_, h⟩
    · exact ⟨_, h⟩
    · exact ⟨_, h⟩
  · rintro ⟨s, h⟩
    cases s with
    | ownEnvironment => exact Or.inl h
    | bundle => exact Or.inr (Or.inl h)
    | testConfiguration => exact Or.inr (Or.inr h)

/-- What only some projects have is none of the files that a project always has. -/
theorem path_not_mem_lastingPaths (s : Supplement) (c : Config) : s.path ∉ lastingPaths c := by
  have hall : paths c = lastingPaths c ++ [Supplement.ownEnvironment.path, Supplement.bundle.path,
      Supplement.testConfiguration.path] := rfl
  have hnodup := nodup_paths c
  rw [hall] at hnodup
  intro hmem
  apply List.disjoint_of_nodup_append hnodup hmem
  cases s with
  | ownEnvironment => exact List.mem_cons_self
  | bundle => exact List.mem_cons_of_mem _ List.mem_cons_self
  | testConfiguration => exact List.mem_cons_of_mem _ (List.mem_cons_of_mem _ List.mem_cons_self)

/-- A save writes a file of this kind when its project calls for it. -/
theorem isSome_written?_supplement (settings : Settings) (c : Config) (s : Supplement) :
    (written? settings c s.path).isSome = s.calledFor c := by
  rw [Bool.eq_iff_iff, isSome_written?_iff, mem_map_path_iff,
    or_iff_right (path_not_mem_lastingPaths s c)]
  constructor
  · rintro ⟨s', hcalled, hpath⟩
    rwa [← Supplement.path_injective hpath]
  · intro hcalled
    exact ⟨s, hcalled, rfl⟩

/-- Of two projects of one name the second one writes every file of the first one when it calls for
all that the first one calls for. -/
theorem forall_isSome_written?_iff (settings : Settings) {c last : Config}
    (hname : c.name = last.name) :
    (∀ names, (written? settings c names).isSome = true →
      (written? settings last names).isSome = true) ↔
      ∀ s : Supplement, s.calledFor c = true → s.calledFor last = true := by
  constructor
  · intro h s hs
    rw [← isSome_written?_supplement settings] at hs ⊢
    exact h _ hs
  · intro h names hwritten
    rw [isSome_written?_iff, mem_map_path_iff] at hwritten ⊢
    rcases hwritten with hlasting | ⟨s, hcalled, hpath⟩
    · left
      rw [lastingPaths, Config.dagFile, ← hname]
      exact hlasting
    · right
      exact ⟨s, h s hcalled, hpath⟩

/-! ## The folder after some saves -/

theorem or_eq_left_iff {α : Type} {a b : Option α} :
    a.or b = a ↔ (b.isSome = true → a.isSome = true) := by
  cases a <;> cases b <;> simp

/-- Saves of one name that succeed one after the other are made in a folder without files.
Afterwards each file has the content that the last save that wrote it gave it, so a file that not
every project has is there when one of the projects called for it. Only if the last project calls
for all of these files that the projects before it called for, the folder has the same files with
the same contents as after the last save alone. -/
theorem stored_of_savedInTurn {settings : Settings} {name : String} {before : List Config}
    {last : Config} {w w' : World} (hnames : ∀ c ∈ before ++ [last], c.name = name)
    (hempty : ∀ names, stored settings name w.disk names = none)
    (hsaved : SavedInTurn settings (before ++ [last]) w w') :
    (∀ names, stored settings name w'.disk names =
      (before ++ [last]).reverse.findSome? fun c => written? settings c names) ∧
    (∀ s : Supplement, (stored settings name w'.disk s.path).isSome = true ↔
      ∃ c ∈ before ++ [last], s.calledFor c = true) ∧
    ∀ v v', (∀ names, stored settings name v.disk names = none) → SavedInTurn settings [last] v v' →
      ((∀ names, stored settings name w'.disk names = stored settings name v'.disk names) ↔
        ∀ c ∈ before, ∀ s : Supplement, s.calledFor c = true → s.calledFor last = true) := by
  have hall (names : List String) : stored settings name w'.disk names =
      (before ++ [last]).reverse.findSome? fun c => written? settings c names := by
    rw [stored_eq_findSome? hsaved hnames fun names _ => hempty names, hempty, Option.or_none]
  refine ⟨hall, ?_, ?_⟩
  · intro s
    rw [hall, List.findSome?_isSome_iff]
    simp only [List.mem_reverse, isSome_written?_supplement]
  · intro v v' hempty' hsaved'
    have hlast (names : List String) :
        stored settings name v'.disk names = written? settings last names := by
      have hname : ∀ c ∈ [last], c.name = name := fun c hc => hnames c (List.mem_append_right _ hc)
      rw [stored_eq_findSome? hsaved' hname fun names _ => hempty' names, hempty', Option.or_none]
      exact List.findSome?_singleton
    -- for one file the folders agree when the last project writes it, or no project before does
    have hone (names : List String) :
        stored settings name w'.disk names = stored settings name v'.disk names ↔
          ∀ c ∈ before, (written? settings c names).isSome = true →
            (written? settings last names).isSome = true := by
      rw [hall, hlast, List.reverse_append, List.reverse_singleton, List.findSome?_append,
        List.findSome?_singleton, or_eq_left_iff, List.findSome?_isSome_iff]
      simp only [List.mem_reverse, forall_exists_index, and_imp]
    have hsame {c : Config} (hc : c ∈ before) : c.name = last.name := by
      rw [hnames c (List.mem_append_left _ hc), hnames last List.mem_concat_self]
    constructor
    · intro h c hc
      rw [← forall_isSome_written?_iff settings (hsame hc)]
      intro names
      exact (hone names).mp (h names) c hc
    · intro h names
      rw [hone names]
      intro c hc
      exact (forall_isSome_written?_iff settings (hsame hc)).mpr (h c hc) names

/-- A project that prepares tests. -/
def testedProject : Payload :=
  { Dag.threeTasks with prepareTests := true }

/-- Projects of one name are saved in an empty workspace. -/
theorem exists_savedInTurn_emptyDirectory {cs : List Config} (hnames : ∀ c ∈ cs, c.name = "demo") :
    ∃ w', SavedInTurn shortSettings cs emptyDirectory w' := by
  apply exists_savedInTurn (emptyWorkspace_emptyDirectory.holds fun l _ =>
    not_upFromMissing_of_isDirectory isDirectory_emptyDirectory l)
  · intro n call
    rfl
  · intro c hc
    rw [hnames c hc]
    exact usable_threeTasks

theorem name_testedProject :
    ∀ c ∈ [testedProject.toConfig] ++ [Dag.threeTasks.toConfig], c.name = "demo" := by
  decide

/-- After a save without tests the configuration of the tests is still there. -/
theorem stored_of_savedInTurn_testedProject :
    ∃ w' v', SavedInTurn shortSettings ([testedProject.toConfig] ++ [Dag.threeTasks.toConfig])
        emptyDirectory w' ∧
      SavedInTurn shortSettings [Dag.threeTasks.toConfig] emptyDirectory v' ∧
        (stored shortSettings "demo" w'.disk ["airflow.cfg"]).isSome = true ∧
          ¬∀ names, stored shortSettings "demo" w'.disk names =
            stored shortSettings "demo" v'.disk names := by
  have hname : ∀ c ∈ [Dag.threeTasks.toConfig], c.name = "demo" := by decide
  obtain ⟨w', hboth⟩ := exists_savedInTurn_emptyDirectory name_testedProject
  obtain ⟨v', hlast⟩ := exists_savedInTurn_emptyDirectory hname
  have hempty := emptyWorkspace_emptyDirectory.stored_eq_none "demo"
  obtain ⟨-, hsupplements, hsame⟩ := stored_of_savedInTurn name_testedProject hempty hboth
  refine ⟨w', v', hboth, hlast, ?_, ?_⟩
  · exact (hsupplements .testConfiguration).mpr ⟨_, List.mem_cons_self, rfl⟩
  · rw [hsame _ _ hempty hlast]
    intro h
    exact absurd (h _ (List.mem_singleton_self _) .testConfiguration rfl) (by decide)

/-- The folder of a project does not always have the files that the last save alone leaves
behind. -/
theorem not_forall_stored_eq :
    ¬∀ (settings : Settings) (name : String) (before : List Config) (last : Config)
      (w w' v v' : World),
      (∀ c ∈ before ++ [last], c.name = name ∧ ∃ p : Payload, p.validate = .ok c) →
        EmptyWorkspace settings w.disk → EmptyWorkspace settings v.disk →
          SavedInTurn settings (before ++ [last]) w w' → SavedInTurn settings [last] v v' →
            ∀ names, stored settings name w'.disk names = stored settings name v'.disk names := by
  intro h
  obtain ⟨w', hboth⟩ := exists_savedInTurn_emptyDirectory name_testedProject
  have hname : ∀ c ∈ [Dag.threeTasks.toConfig], c.name = "demo" := by decide
  obtain ⟨v', hlast⟩ := exists_savedInTurn_emptyDirectory hname
  have hvalid : ∀ c ∈ [testedProject.toConfig] ++ [Dag.threeTasks.toConfig],
      c.name = "demo" ∧ ∃ p : Payload, p.validate = .ok c := by
    intro c hc
    refine ⟨name_testedProject c hc, ?_⟩
    rcases List.mem_cons.mp hc with rfl | hc
    · exact ⟨testedProject, by rfl⟩
    · rw [List.mem_singleton.mp hc]
      exact ⟨Dag.threeTasks, by rfl⟩
  have hempty := emptyWorkspace_emptyDirectory.stored_eq_none "demo"
  have hsame := h shortSettings "demo" _ _ _ _ _ _ hvalid emptyWorkspace_emptyDirectory
    emptyWorkspace_emptyDirectory hboth hlast Supplement.testConfiguration.path
  rw [stored_eq_findSome? hboth name_testedProject fun names _ => hempty names,
    stored_eq_findSome? hlast hname fun names _ => hempty names, hempty, Option.or_none,
    Option.or_none] at hsame
  have hone : ([Dag.threeTasks.toConfig].reverse.findSome? fun c =>
      written? shortSettings c Supplement.testConfiguration.path).isSome = false := by
    rw [List.reverse_singleton, List.findSome?_singleton, isSome_written?_supplement]
    rfl
  rw [← hsame, Bool.eq_false_iff, ne_eq, List.findSome?_isSome_iff] at hone
  apply hone
  refine ⟨testedProject.toConfig, by simp, ?_⟩
  rw [isSome_written?_supplement]
  rfl

end DagScaffold.Store
