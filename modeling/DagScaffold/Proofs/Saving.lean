import Mathlib
import DagScaffold.Proofs.ProjectPaths
import DagScaffold.Proofs.TaskOrder
import DagScaffold.Store

/-!
# What saving a project leaves behind

Saving replaces one file after the other, each in one step. Whenever it stops, the files so far have
their new contents and those to come are as they were; besides, only directories on the way to the
files can be new. A root that leads up from the place of a file at which nothing is makes an
exception: a directory is made there.

* `Saved`, `Midway` : the disk between two files and the disk at any time;
* `after_forM_writeFile` : the run over the files of a project;
* `OldOrNew`, `FirstWritten`, `contents_after_saveConfig` : saving a project;
* `not_forall_firstWritten` : the exception.
-/

namespace DagScaffold.Store

open DagScaffold.Files

open Disk World

/-! ## The disk between two files -/

/-- The disk when some files are written: these are found with their new contents, and every other
place is as it was, but that new directories may be at some places. -/
structure Saved (places : Location → Prop) (root : Path) (written : List ProjectFile)
    (d d' : Disk) : Prop where
  workingDirectory : d'.workingDirectory = d.workingDirectory
  found : ∀ f ∈ written, d'.find (filePath root f) =
    .ok (d.place (filePath root f), .file (.text f.content))
  others : ∀ l, (∀ f ∈ written, l ≠ d.place (filePath root f)) →
    d'.at? l = d.at? l ∨ places l ∧ d.at? l = none ∧ d'.at? l = some .directory

/-- The disk at any time while some files are written: a file has its new content, or its place is
as it was, as every other place is but those of temporary files and of new directories. -/
structure Midway (places temporary : Location → Prop) (root : Path) (files : List ProjectFile)
    (d d' : Disk) : Prop where
  workingDirectory : d'.workingDirectory = d.workingDirectory
  objects : ∀ l, ¬temporary l →
    d'.at? l = d.at? l ∨ places l ∧ d.at? l = none ∧ d'.at? l = some .directory ∨
      ∃ f ∈ files, l = d.place (filePath root f) ∧ d'.at? l = some (.file (.text f.content))

section Steps

variable {places temporary : Location → Prop} {root : Path} {written files : List ProjectFile}
  {d d' d'' : Disk}

theorem Saved.nil (d : Disk) : Saved places root [] d d :=
  ⟨rfl, fun _ hf => absurd hf List.not_mem_nil, fun _ _ => Or.inl rfl⟩

/-- What was at no place of a written file is still there. -/
theorem Saved.at?_eq_some (h : Saved places root written d d') {l : Location} {o : Object}
    (hl : ∀ f ∈ written, l ≠ d.place (filePath root f)) (hat : d.at? l = some o) :
    d'.at? l = some o := by
  rcases h.others l hl with hsame | ⟨-, hnone, -⟩
  · exact hsame.trans hat
  · rw [hat] at hnone
    cases hnone

/-- Files that take the place of no directory leave all directories. -/
theorem Saved.keepsDirectories (h : Saved places root written d d')
    (hfiles : ∀ f ∈ written, d.at? (d.place (filePath root f)) ≠ some .directory) :
    KeepsDirectories d d' := by
  refine fun l hl => h.at?_eq_some ?_ hl
  rintro f hf rfl
  exact hfiles f hf hl

/-- Directories may be made between two files. -/
theorem Saved.grown (h : Saved places root written d d') (hgrown : Grown places d' d'') :
    Saved places root written d d'' := by
  refine ⟨hgrown.workingDirectory.trans h.workingDirectory, fun f hf => ?_, fun l hl => ?_⟩
  · have hfind := h.found f hf
    obtain ⟨-, -, hat, -⟩ := find_eq_ok hfind
    exact find_of_keepsDirectories hgrown.keepsDirectories hgrown.workingDirectory hfind
      (hgrown.at?_eq_some hat)
  · rcases hgrown.objects l with hsame | ⟨hplace, hnone, hnew⟩
    · rw [hsame]
      exact h.others l hl
    · rcases h.others l hl with hkept | ⟨-, -, hdirectory⟩
      · exact Or.inr ⟨hplace, hkept.symm.trans hnone, hnew⟩
      · rw [hnone] at hdirectory
        cases hdirectory

/-- One more file takes its place, at which no file before it is. -/
theorem Saved.replaced (h : Saved places root written d d') {f : ProjectFile}
    (hdirectory : d'.at? (d.place (filePath root f)) ≠ some .directory)
    (hchanged : ChangedAt d' d'' (d.place (filePath root f)) (some (.file (.text f.content))))
    (hfind : d''.find (filePath root f) =
      .ok (d.place (filePath root f), .file (.text f.content)))
    (hapart : ∀ g ∈ written, d.place (filePath root g) ≠ d.place (filePath root f)) :
    Saved places root (written ++ [f]) d d'' := by
  refine ⟨hchanged.workingDirectory.trans h.workingDirectory, fun g hg => ?_, fun l hl => ?_⟩
  · rcases List.mem_append.mp hg with hg | hg
    · have hfound := h.found g hg
      obtain ⟨-, -, hat, -⟩ := find_eq_ok hfound
      refine find_of_keepsDirectories (hchanged.keepsDirectories hdirectory)
        hchanged.workingDirectory hfound ?_
      rw [hchanged.objects, if_neg (hapart g hg), hat]
    · rw [List.mem_singleton.mp hg]
      exact hfind
  · have hne : l ≠ d.place (filePath root f) :=
      hl f (List.mem_append_right _ (List.mem_singleton_self f))
    rw [hchanged.objects, if_neg hne]
    exact h.others l fun g hg => hl g (List.mem_append_left _ hg)

/-- Between two files the disk is as at any time. -/
theorem Saved.midway (h : Saved places root written d d') (hmem : ∀ f ∈ written, f ∈ files) :
    Midway places temporary root files d d' := by
  refine ⟨h.workingDirectory, fun l _ => ?_⟩
  by_cases hl : ∃ f ∈ written, l = d.place (filePath root f)
  · obtain ⟨f, hf, rfl⟩ := hl
    obtain ⟨-, -, hat, -⟩ := find_eq_ok (h.found f hf)
    exact Or.inr (Or.inr ⟨f, hmem f hf, rfl, hat⟩)
  · have hothers := h.others l fun f hf heq => hl ⟨f, hf, heq⟩
    rcases hothers with hsame | hnew
    · exact Or.inl hsame
    · exact Or.inr (Or.inl hnew)

/-- While a file is replaced, the disk is as before the file but for its temporary one. -/
theorem Midway.replacing (h : Midway places temporary root files d d') {f : ProjectFile}
    (hf : f ∈ files) {l : Location} (hl : temporary l)
    (hreplacing : Replacing d' l (d.place (filePath root f)) (.text f.content) d'') :
    Midway places temporary root files d d'' := by
  refine ⟨hreplacing.workingDirectory.trans h.workingDirectory, fun l' hl' => ?_⟩
  have hne : l' ≠ l := by
    rintro rfl
    exact hl' hl
  rcases hreplacing.objects l' hne with hsame | ⟨hplace, hnew⟩
  · rw [hsame]
    exact h.objects l' hl'
  · exact Or.inr (Or.inr ⟨f, hf, hplace, hnew⟩)

end Steps

/-! ## Runs that may fail -/

section

variable {α β : Type}

/-- A run that may fail goes on with what its first part gives. -/
theorem After.bindExcept {x : ExceptT Failure (StateM World) α}
    {f : α → ExceptT Failure (StateM World) β} {w : World} {mid : Except Failure α → World → Prop}
    {post : Except Failure β → World → Prop} (hx : After x.run w mid)
    (h : ∀ r w', mid r w' →
      match r with
      | .ok a => After (f a).run w' post
      | .error e => post (.error e) w') :
    After (x >>= f).run w post := by
  rw [ExceptT.run_bind]
  refine After.bind hx fun r w' hr => ?_
  have hrest := h r w' hr
  cases r with
  | ok a => exact hrest
  | error e => exact hrest

/-- A file operation in a run of the store. -/
theorem After.lift {x : StateM World (Except Files.Error α)} {w : World}
    {post : Except Files.Error α → World → Prop} (h : After x w post) :
    After (lift x : ExceptT Failure (StateM World) α).run w fun r w' =>
      ∃ r', r = r'.mapError .files ∧ post r' w' := by
  refine After.bind h fun r w' hr => ?_
  cases r with
  | ok a => exact ⟨.ok a, rfl, hr⟩
  | error e => exact ⟨.error e, rfl, hr⟩

end

/-! ## The run over the files -/

section Run

variable {places temporary : Location → Prop} {root : Path} {all : List ProjectFile} {d : Disk}
  {first : Nat}

/-- What the places of a run have to do with each other: temporary files are at temporary
places, at which no file is, and the directories on the way to the files are at the places of
new directories. -/
structure Layout (places temporary : Location → Prop) (root : Path) (all : List ProjectFile)
    (d : Disk) (first : Nat) : Prop where
  apart : Apart all
  temporary : ∀ f ∈ all, ∀ n, first ≤ n → temporary (d.place (temporaryPath (filePath root f) n))
  fresh : ∀ f ∈ all, ∀ n, first ≤ n →
    d.content? (d.place (temporaryPath (filePath root f) n)) = none
  way : ∀ f ∈ all, ∀ l, OnTheWay d (filePath root f).parent l → places l

/-- No temporary file is at the place of a file. -/
theorem Layout.place_ne (h : Layout places temporary root all d first) {f g : ProjectFile}
    (hf : f ∈ all) (hg : g ∈ all) (n : Nat) :
    d.place (temporaryPath (filePath root f) n) ≠ d.place (filePath root g) := by
  intro heq
  rw [filePath, place_temporaryPath d root (h.apart.named f hf), place_filePath] at heq
  exact h.apart.lasting g hg f hf n (List.append_cancel_left heq).symm

/-- One file is written, or the disk is as before but for new directories if no removal fails by
itself. -/
theorem after_writeFile (h : Layout places temporary root all d first)
    {written : List ProjectFile} {f : ProjectFile} {rest : List ProjectFile}
    (hall : all = written ++ f :: rest) {w : World} (hfirst : first ≤ w.journal.length)
    (hsaved : Saved places root written d w.disk) :
    After (writeFile root f : ExceptT Failure (StateM World) Unit).run w fun r w' =>
      Leads (Midway places temporary root all d) w w' ∧
        match r with
        | .ok _ => Saved places root (written ++ [f]) d w'.disk
        | .error _ => (∀ n p, w.faults n (.remove p) = none) →
          Saved places root written d w'.disk := by
  have hmem : ∀ g ∈ written, g ∈ all := fun g hg => by
    rw [hall]
    exact List.mem_append_left _ hg
  have hf : f ∈ all := by
    rw [hall]
    exact List.mem_append_right _ List.mem_cons_self
  have hplace (p : Path) : w.disk.place p = d.place p := place_congr hsaved.workingDirectory p
  have hway (l : Location) (hl : OnTheWay w.disk (filePath root f).parent l) : places l := by
    obtain ⟨parts, hparts, rfl⟩ := hl
    refine h.way f hf _ ⟨parts, hparts, ?_⟩
    rw [start, start, hsaved.workingDirectory]
  have hapart (n : Nat) : w.disk.place (temporaryPath (filePath root f) n) ≠
      w.disk.place (filePath root f) := by
    rw [hplace, hplace]
    exact h.place_ne hf hf n
  -- no file was at the place of the temporary file, so none can be there now
  have hfresh : ∀ n, w.journal.length ≤ n → ∀ old,
      w.disk.at? (w.disk.place (temporaryPath (filePath root f) n)) ≠ some (.file old) := by
    intro n hn old hold
    rw [hplace] at hold
    have hnone := h.fresh f hf n (le_trans hfirst hn)
    rcases hsaved.others _ fun g hg => h.place_ne hf (hmem g hg) n with hsame | ⟨-, -, hnew⟩
    · rw [hsame] at hold
      rw [content?_of_file hold] at hnone
      cases hnone
    · rw [hold] at hnew
      cases hnew
  have hslash : (filePath root f).directoryOnly = false :=
    descend_directoryOnly root (h.apart.named f hf)
  have hfile := after_replaceFile f.content hapart hfresh hslash
  refine (After.lift hfile).mono ?_
  rintro _ w' ⟨r, rfl, hleads, hresult⟩
  refine ⟨hleads.mono ?_, ?_⟩
  · rintro d' ⟨between, n, hn, hgrown, hreplacing⟩
    rw [hplace, hplace] at hreplacing
    exact ((hsaved.grown (hgrown.mono hway)).midway hmem).replacing hf
      (h.temporary f hf n (le_trans hfirst hn)) hreplacing
  · cases r with
    | error e =>
        intro hremove
        exact hsaved.grown ((hresult hremove).mono hway)
    | ok _ =>
        obtain ⟨between, hgrown, hdirectory, hchanged, hfind⟩ := hresult
        rw [hplace] at hdirectory hchanged hfind
        refine (hsaved.grown (hgrown.mono hway)).replaced hdirectory hchanged hfind ?_
        intro g hg heq
        rw [place_filePath, place_filePath] at heq
        have hdistinct := h.apart.distinct
        rw [hall, List.map_append, List.map_cons] at hdistinct
        exact List.disjoint_of_nodup_append hdistinct (List.mem_map_of_mem hg)
          (List.append_cancel_left heq ▸ List.mem_cons_self)

/-- Files are written one after the other, up to the first one that fails; that one is as it was if
no removal fails by itself. -/
theorem after_forM_writeFile (h : Layout places temporary root all d first)
    {written files : List ProjectFile} (hall : all = written ++ files) {w : World}
    (hfirst : first ≤ w.journal.length) (hsaved : Saved places root written d w.disk) :
    After (files.forM (writeFile root) : ExceptT Failure (StateM World) Unit).run w fun r w' =>
      Leads (Midway places temporary root all d) w w' ∧
        match r with
        | .ok _ => Saved places root all d w'.disk
        | .error _ => (∀ n p, w.faults n (.remove p) = none) → ∃ k < files.length,
            Saved places root (written ++ files.take k) d w'.disk := by
  induction files generalizing written w with
  | nil =>
      rw [List.append_nil] at hall
      rw [← hall] at hsaved
      exact After.pure ⟨Leads.refl (hsaved.midway fun _ hf => hf), hsaved⟩
  | cons f files ih =>
      refine After.bindExcept (after_writeFile h hall hfirst hsaved) fun r v hv => ?_
      obtain ⟨hleads, hresult⟩ := hv
      cases r with
      | error e =>
          refine ⟨hleads, fun hremove => ⟨0, Nat.succ_pos _, ?_⟩⟩
          rw [List.take_zero, List.append_nil]
          exact hresult hremove
      | ok _ =>
          have hall' : all = written ++ [f] ++ files := by
            rw [hall, List.append_assoc, List.singleton_append]
          refine (ih hall' (le_trans hfirst hleads.length_le) hresult).mono fun r' v' hv' => ?_
          obtain ⟨hleads', hresult'⟩ := hv'
          refine ⟨hleads.trans hleads', ?_⟩
          cases r' with
          | ok _ => exact hresult'
          | error e =>
              intro hremove
              rw [← hleads.faults] at hremove
              obtain ⟨k, hk, hsaved'⟩ := hresult' hremove
              refine ⟨k + 1, Nat.succ_lt_succ hk, ?_⟩
              rw [List.take_succ_cons]
              rwa [List.append_assoc, List.singleton_append] at hsaved'

end Run

/-! ## Saving -/

/-- The path of the folder of a project. -/
def root (settings : Settings) (config : Config) : Path :=
  Path.parse (settings.projectDir config.name)

/-- The places on the way to the directories of a project. -/
def Way (settings : Settings) (config : Config) (d : Disk) (l : Location) : Prop :=
  ∃ directory ∈ directories, OnTheWay d ((root settings config).descend directory) l

/-- The places of temporary files of a project, with numbers from a first one on. -/
def Temporary (settings : Settings) (config : Config) (d : Disk) (first : Nat) (l : Location) :
    Prop :=
  ∃ f ∈ projectFiles settings config, ∃ n, first ≤ n ∧
    l = d.place (temporaryPath (filePath (root settings config) f) n)

/-- The files of a project have such places where no file is at those of temporary files. -/
theorem layout_of_content? {settings : Settings} {config : Config} {d : Disk} {first : Nat}
    (hfresh : ∀ f ∈ projectFiles settings config, ∀ n, first ≤ n →
      d.content? (d.place (temporaryPath (filePath (root settings config) f) n)) = none) :
    Layout (Way settings config d) (Temporary settings config d first) (root settings config)
      (projectFiles settings config) d first where
  apart := apart_projectFiles settings config
  temporary := fun f hf n hn => ⟨f, hf, n, hn, rfl⟩
  fresh := hfresh
  way := by
    rintro f hf l ⟨parts, hparts, rfl⟩
    obtain ⟨hfile, habsolute⟩ := descend_parts (root settings config) f.path
    obtain ⟨hfolder, habsolute'⟩ := descend_parts (root settings config) f.path.dropLast
    have hnamed : f.path.map Part.entry ≠ [] := fun hnil =>
      (apart_projectFiles settings config).named f hf (List.map_eq_nil_iff.mp hnil)
    have hparent : (filePath (root settings config) f).parent.parts =
        ((root settings config).descend f.path.dropLast).parts := by
      rw [hfolder, Path.parent, filePath, hfile, List.dropLast_append_of_ne_nil hnamed,
        List.map_dropLast]
    refine ⟨f.path.dropLast, dropLast_mem_directories hf, parts, ?_, ?_⟩
    · rwa [← hparent]
    · rw [start, start, habsolute', ← habsolute]
      rfl

/-- The files of a project have such places where nothing is at those of temporary files. -/
theorem layout_projectFiles {settings : Settings} {config : Config} {d : Disk} {first : Nat}
    (hfresh : ∀ f ∈ projectFiles settings config, ∀ n, first ≤ n →
      d.at? (d.place (temporaryPath (filePath (root settings config) f) n)) = none) :
    Layout (Way settings config d) (Temporary settings config d first) (root settings config)
      (projectFiles settings config) d first :=
  layout_of_content? fun f hf n hn => content?_of_none (hfresh f hf n hn)

/-- A project with a usable name has a folder. -/
theorem folder_of_usable (settings : Settings) {name : String}
    (h : Project.nameProblem? name = none) :
    folder settings name = .ok (settings.projectDir name) := by
  rw [folder, h]

/-- Making the directories of a project makes directories on the way to them only. -/
theorem after_ensureSubdirectories {settings : Settings} {config : Config} {d : Disk}
    {names : List String} (hnames : ∀ name ∈ names, [name] ∈ directories) {w : World}
    (hstart : w.disk.workingDirectory = d.workingDirectory) :
    After (names.forM fun name => lift (ensureDirectory ((root settings config).child name)) :
        ExceptT Failure (StateM World) Unit).run w fun _ w' =>
      Leads (Grown (Way settings config d) w.disk) w w' := by
  induction names generalizing w with
  | nil => exact After.pure (Leads.refl (Grown.refl _ _))
  | cons name names ih =>
      obtain ⟨hname, hrest⟩ := List.forall_mem_cons.mp hnames
      refine After.bindExcept (After.lift (after_ensureDirectory _ w)) ?_
      rintro _ v ⟨r, rfl, hv⟩
      have hfirst : Leads (Grown (Way settings config d) w.disk) w v := by
        refine hv.mono fun d' hd' => hd'.mono ?_
        rintro l ⟨parts, hparts, rfl⟩
        exact ⟨[name], hname, parts, hparts, by rw [start, start, hstart]; rfl⟩
      cases r with
      | error e => exact hfirst
      | ok _ =>
          have hstart' := hfirst.disk.workingDirectory.trans hstart
          exact (ih hrest hstart').mono fun _ v' hv' => hfirst.grown_trans hv'

/-- The run of a save: at any time it is midway, and when it fails some of the files are written and
the others are not, if no removal fails by itself. -/
theorem after_saveConfig_of_layout {settings : Settings} {config : Config}
    (husable : Project.nameProblem? config.name = none) {w : World}
    (hlayout : Layout (Way settings config w.disk)
      (Temporary settings config w.disk w.journal.length)
      (root settings config) (projectFiles settings config) w.disk w.journal.length) :
    After (saveConfig settings config : ExceptT Failure (StateM World) Status).run w fun r w' =>
      Leads (Midway (Way settings config w.disk)
        (Temporary settings config w.disk w.journal.length) (root settings config)
          (projectFiles settings config) w.disk) w w' ∧
        match r with
        | .ok _ => Saved (Way settings config w.disk) (root settings config)
            (projectFiles settings config) w.disk w'.disk
        | .error _ => (∀ n path, w.faults n (.remove path) = none) →
            ∃ k < (projectFiles settings config).length,
              Saved (Way settings config w.disk) (root settings config)
                ((projectFiles settings config).take k) w.disk w'.disk := by
  have hmidway {d : Disk} (h : Grown (Way settings config w.disk) w.disk d) :
      Midway (Way settings config w.disk) (Temporary settings config w.disk w.journal.length)
        (root settings config) (projectFiles settings config) w.disk d :=
    ((Saved.nil w.disk).grown h).midway fun _ hf => absurd hf List.not_mem_nil
  have hfailed {d : Disk} (h : Grown (Way settings config w.disk) w.disk d) :
      ∃ k < (projectFiles settings config).length,
        Saved (Way settings config w.disk) (root settings config)
          ((projectFiles settings config).take k) w.disk d :=
    ⟨0, Nat.succ_pos _, (Saved.nil w.disk).grown h⟩
  have hfolder : After (ExceptT.mk (pure (folder settings config.name)) :
      ExceptT Failure (StateM World) String).run w fun r v =>
        r = .ok (settings.projectDir config.name) ∧ v = w :=
    After.pure ⟨folder_of_usable settings husable, rfl⟩
  refine After.bindExcept hfolder ?_
  rintro _ v ⟨rfl, hv⟩
  rw [hv]
  refine After.bindExcept (After.lift (after_exists? _ w)) ?_
  rintro _ v ⟨r, rfl, hv⟩
  have hfirst : Leads (Grown (Way settings config w.disk) w.disk) w v := by
    refine hv.mono ?_
    rintro d rfl
    exact Grown.refl _ _
  cases r with
  | error e => exact ⟨hfirst.mono fun _ => hmidway, fun _ => hfailed hfirst.disk⟩
  | ok existed =>
      have hsubdirectories : ∀ name ∈ subdirectories, [name] ∈ directories := by decide
      refine After.bindExcept (after_ensureSubdirectories hsubdirectories
        hfirst.disk.workingDirectory) fun r' v' hv' => ?_
      have hsecond := hfirst.grown_trans hv'
      cases r' with
      | error e => exact ⟨hsecond.mono fun _ => hmidway, fun _ => hfailed hsecond.disk⟩
      | ok _ =>
          have hfiles := after_forM_writeFile hlayout (List.nil_append _).symm hsecond.length_le
            ((Saved.nil w.disk).grown hsecond.disk)
          refine After.bindExcept hfiles fun r'' v'' hv'' => ?_
          obtain ⟨hleads, hresult⟩ := hv''
          have hall := (hsecond.mono fun _ => hmidway).trans hleads
          cases r'' with
          | error e =>
              refine ⟨hall, fun hremove => ?_⟩
              rw [← hsecond.faults] at hremove
              simpa using hresult hremove
          | ok _ => exact ⟨hall, hresult⟩

/-- The run of a save where no removal fails by itself and the names of temporary files are free. -/
theorem after_saveConfig {settings : Settings} {config : Config}
    (husable : Project.nameProblem? config.name = none) {w : World}
    (hremove : ∀ n path, w.faults n (.remove path) = none)
    (hfresh : ∀ f ∈ projectFiles settings config, ∀ n, w.journal.length ≤ n →
      w.disk.at? (w.disk.place (temporaryPath (filePath (root settings config) f) n)) = none) :
    After (saveConfig settings config : ExceptT Failure (StateM World) Status).run w fun r w' =>
      Leads (Midway (Way settings config w.disk)
        (Temporary settings config w.disk w.journal.length) (root settings config)
          (projectFiles settings config) w.disk) w w' ∧
        match r with
        | .ok _ => Saved (Way settings config w.disk) (root settings config)
            (projectFiles settings config) w.disk w'.disk
        | .error _ => ∃ k < (projectFiles settings config).length,
            Saved (Way settings config w.disk) (root settings config)
              ((projectFiles settings config).take k) w.disk w'.disk := by
  refine (after_saveConfig_of_layout husable (layout_projectFiles hfresh)).mono ?_
  rintro r w' ⟨hleads, hresult⟩
  cases r with
  | ok status => exact ⟨hleads, hresult⟩
  | error e => exact ⟨hleads, hresult hremove⟩

/-- The place of a file at which nothing is lies on the way to no directory of the project, unless
the path of the folder leads up from that place. -/
theorem not_way_filePath {settings : Settings} {config : Config} {f : ProjectFile}
    (hf : f ∈ projectFiles settings config) {d : Disk}
    (hmissing : d.at? (d.place (filePath (root settings config) f)) = none)
    (hroot : ¬UpFromMissing d (root settings config)
      (d.place (filePath (root settings config) f))) :
    ¬Way settings config d (d.place (filePath (root settings config) f)) := by
  rintro ⟨directory, hdirectory, hway⟩
  rcases onTheWay_descend hway with hway | ⟨front, hfront, heq⟩
  · refine hroot (hway.upFromMissing hmissing fun hprefix => ?_)
    -- the folder is not in a file of its own
    have hlength := hprefix.length_le
    have hnamed := List.length_pos_of_ne_nil ((apart_projectFiles settings config).named f hf)
    rw [place_filePath, List.length_append] at hlength
    omega
  · rw [place_filePath] at heq
    rw [← List.append_cancel_left heq] at hfront
    exact not_prefix_directories hf hdirectory hfront

/-! ## What is promised -/

/-- Whether the place of a file holds what it held before or the new content. -/
def OldOrNew (root : Path) (f : ProjectFile) (d d' : Disk) : Prop :=
  d'.at? (d.place (filePath root f)) = d.at? (d.place (filePath root f)) ∨
    d'.at? (d.place (filePath root f)) = some (.file (.text f.content))

/-- What a save that wrote some files leaves behind: these have their new contents, at the places of
the others is what was there, there is no temporary file with a number from a first one on, and
otherwise only directories are new. -/
structure FirstWritten (root : Path) (files : List ProjectFile) (first k : Nat) (d d' : Disk) :
    Prop where
  written : ∀ f ∈ files.take k, d'.read (filePath root f) = .ok f.content
  kept : ∀ f ∈ files.drop k,
    d'.at? (d.place (filePath root f)) = d.at? (d.place (filePath root f))
  noTemporary : ∀ f ∈ files, ∀ n, first ≤ n →
    d'.content? (d.place (temporaryPath (filePath root f) n)) = none
  others : ∀ l, (∀ f ∈ files.take k, l ≠ d.place (filePath root f)) →
    d'.at? l = d.at? l ∨ d.at? l = none ∧ d'.at? l = some .directory

section Promises

variable {settings : Settings} {config : Config} {d d' : Disk} {first : Nat}

/-- At any time of a save a file has its old content or its new one. -/
theorem Midway.oldOrNew
    (h : Midway (Way settings config d) (Temporary settings config d first)
      (root settings config) (projectFiles settings config) d d')
    (hlayout : Layout (Way settings config d) (Temporary settings config d first)
      (root settings config) (projectFiles settings config) d first)
    {f : ProjectFile} (hf : f ∈ projectFiles settings config)
    (hroot : ¬UpFromMissing d (root settings config)
      (d.place (filePath (root settings config) f))) :
    OldOrNew (root settings config) f d d' := by
  have hlasting : ¬Temporary settings config d first
      (d.place (filePath (root settings config) f)) := by
    rintro ⟨g, hg, n, -, heq⟩
    exact hlayout.place_ne hg hf n heq.symm
  rcases h.objects _ hlasting with hsame | ⟨hway, hnone, -⟩ | ⟨g, hg, heq, hat⟩
  · exact Or.inl hsame
  · exact absurd hway (not_way_filePath hf hnone hroot)
  · rw [place_filePath, place_filePath] at heq
    have hpath := List.append_cancel_left heq
    obtain rfl := List.inj_on_of_nodup_map hlayout.apart.distinct hf hg hpath
    exact Or.inr hat

/-- Files from some point on are not at the places of those before it. -/
theorem Apart.place_ne_of_mem_drop {files : List ProjectFile} (h : Apart files) {k : Nat}
    {f g : ProjectFile} (hf : f ∈ files.drop k) (hg : g ∈ files.take k) (root : Path) :
    d.place (filePath root f) ≠ d.place (filePath root g) := by
  intro heq
  rw [place_filePath, place_filePath] at heq
  have hpath := List.append_cancel_left heq
  have hdistinct := h.distinct
  rw [← List.take_append_drop k files, List.map_append] at hdistinct
  exact List.disjoint_of_nodup_append hdistinct (List.mem_map_of_mem hg)
    (hpath ▸ List.mem_map_of_mem hf)

/-- A file of the project is read with its new content, or its place is as it was. -/
theorem FirstWritten.read_or_kept {root : Path} {files : List ProjectFile} {k : Nat}
    (h : FirstWritten root files first k d d') {f : ProjectFile} (hf : f ∈ files) :
    d'.read (filePath root f) = .ok f.content ∨
      d'.at? (d.place (filePath root f)) = d.at? (d.place (filePath root f)) := by
  rw [← List.take_append_drop k files, List.mem_append] at hf
  exact hf.imp (h.written f) (h.kept f)

/-- What is promised of a save that wrote some files. -/
theorem Saved.firstWritten {k : Nat}
    (h : Saved (Way settings config d) (root settings config)
      ((projectFiles settings config).take k) d d')
    (hlayout : Layout (Way settings config d) (Temporary settings config d first)
      (root settings config) (projectFiles settings config) d first)
    (hroot : ∀ f ∈ projectFiles settings config,
      ¬UpFromMissing d (root settings config) (d.place (filePath (root settings config) f))) :
    FirstWritten (root settings config) (projectFiles settings config) first k d d' := by
  have hothers (l : Location)
      (hl : ∀ f ∈ (projectFiles settings config).take k,
        l ≠ d.place (filePath (root settings config) f)) :
      d'.at? l = d.at? l ∨ d.at? l = none ∧ d'.at? l = some .directory :=
    (h.others l hl).imp_right And.right
  refine ⟨fun f hf => read_of_find (h.found f hf), fun f hf => ?_, fun f hf n hn => ?_, hothers⟩
  · have hmem := List.mem_of_mem_drop hf
    rcases h.others _ fun g hg => hlayout.apart.place_ne_of_mem_drop hf hg _ with
      hsame | ⟨hway, hnone, -⟩
    · exact hsame
    · exact absurd hway (not_way_filePath hmem hnone (hroot f hmem))
  · rw [content?_eq_of_grown (hothers _ fun g hg => ?_)]
    · exact hlayout.fresh f hf n hn
    · exact hlayout.place_ne hf (List.mem_of_mem_take hg) n

end Promises

/-- After every call of a save each file of the project has its old content or its new one. When the
save fails, the files up to some point are written and those from there on are as they were, no
temporary file is left, and otherwise only directories are new; when it succeeds this holds with all
files written. The calls that remove a file must not fail by themselves, the names of temporary
files must be free, and the path of the folder must not lead up from the place of a file at which
nothing is. -/
theorem contents_after_saveConfig {settings : Settings} {p : Payload} {c : Config}
    (hvalid : p.validate = .ok c) {w w' : World} {r : Except Failure Status}
    (hrun : (saveConfig settings c : ExceptT Failure (StateM World) Status).run w = (r, w'))
    (hremove : ∀ n path, w.faults n (.remove path) = none)
    (hfresh : ∀ f ∈ projectFiles settings c, ∀ n, w.journal.length ≤ n →
      w.disk.at? (w.disk.place (temporaryPath (filePath (root settings c) f) n)) = none)
    (hroot : ∀ f ∈ projectFiles settings c,
      ¬UpFromMissing w.disk (root settings c) (w.disk.place (filePath (root settings c) f))) :
    (∃ events, w'.journal = w.journal ++ events ∧ ∀ event ∈ events,
      ∀ f ∈ projectFiles settings c, OldOrNew (root settings c) f w.disk event.disk) ∧
    (∀ e, r = .error e → ∃ k < (projectFiles settings c).length,
      FirstWritten (root settings c) (projectFiles settings c) w.journal.length k w.disk w'.disk) ∧
    ∀ status, r = .ok status →
      FirstWritten (root settings c) (projectFiles settings c) w.journal.length
        (projectFiles settings c).length w.disk w'.disk := by
  have husable := (Payload.wellFormed_of_validate hvalid).name_usable
  have hlayout := layout_projectFiles hfresh
  have hafter := after_saveConfig husable hremove hfresh
  rw [After, hrun] at hafter
  obtain ⟨hleads, hresult⟩ := hafter
  obtain ⟨events, hjournal, hevents⟩ := hleads.journal
  refine ⟨⟨events, hjournal, fun event hevent f hf =>
    (hevents event hevent).oldOrNew hlayout hf (hroot f hf)⟩, ?_, ?_⟩
  · rintro e rfl
    obtain ⟨k, hk, hsaved⟩ := hresult
    exact ⟨k, hk, hsaved.firstWritten hlayout hroot⟩
  · rintro status rfl
    refine Saved.firstWritten ?_ hlayout hroot
    rw [List.take_length]
    exact hresult

/-- Settings with a short root. -/
def shortSettings : Settings where
  workspaceRoot := "/ws"

/-- A workspace in which a directory stands where a file of the project `demo` belongs. -/
def blockedWorkspace : World where
  disk := {
    objects := [(["ws"], .directory), (["ws", "demo"], .directory),
      (["ws", "demo", "README.md"], .directory)] }

/-- The outcome of saving a project there. -/
def blockedSave : Except Failure Status × World :=
  (saveConfig shortSettings Dag.threeTasks.toConfig : ExceptT Failure (StateM World) Status).run
    blockedWorkspace

/-- A save that fails at a directory in the place of a file leaves the files before it written, and
the others as they were. -/
theorem contents_after_saveConfig_blocked :
    Dag.threeTasks.validate = .ok Dag.threeTasks.toConfig ∧
      (∀ event ∈ blockedSave.2.journal,
        ∀ f ∈ projectFiles shortSettings Dag.threeTasks.toConfig,
          OldOrNew (root shortSettings Dag.threeTasks.toConfig) f blockedWorkspace.disk
            event.disk) ∧
      blockedSave.1.isOk = false ∧
        ∃ k < (projectFiles shortSettings Dag.threeTasks.toConfig).length,
          FirstWritten (root shortSettings Dag.threeTasks.toConfig)
            (projectFiles shortSettings Dag.threeTasks.toConfig) 0 k blockedWorkspace.disk
              blockedSave.2.disk := by
  have hvalid : Dag.threeTasks.validate = .ok Dag.threeTasks.toConfig := by rfl
  have hending : ∀ entry ∈ blockedWorkspace.disk.objects, lastChar? entry.1 ≠ some 'p' := by
    decide
  have hfailed : blockedSave.1.isOk = false := by decide +kernel
  obtain ⟨⟨events, hjournal, hevents⟩, herror, -⟩ :=
    contents_after_saveConfig hvalid (Prod.eta blockedSave).symm (fun _ _ => rfl)
      (fun f hf n _ => at?_temporaryPath_eq_none hending hf _ n)
      fun f _ => not_upFromMissing_of_not_mem (by decide) _ _
  refine ⟨hvalid, ?_, hfailed, ?_⟩
  · rw [hjournal]
    exact hevents
  · cases hresult : blockedSave.1 with
    | ok status =>
        rw [hresult] at hfailed
        cases hfailed
    | error e => exact herror e hresult

/-- Settings with a root that leads up from the place of the manifest of the project `demo`. -/
def detourSettings : Settings where
  workspaceRoot := "ws/demo/meta.yaml/../.."

/-- A world without files. -/
def nowhere : World where
  disk := {}

/-- The outcome of saving a project there. -/
def detourSave : Except Failure Status × World :=
  (saveConfig detourSettings Dag.threeTasks.toConfig : ExceptT Failure (StateM World) Status).run
    nowhere

/-- The save fails. -/
theorem isOk_detourSave : detourSave.1.isOk = false := by
  decide +kernel

/-- Before it nothing is at the place of the manifest. -/
theorem at?_nowhere :
    nowhere.disk.at? (nowhere.disk.place
      ((root detourSettings Dag.threeTasks.toConfig).descend [Manifest.fileName])) = none := by
  decide +kernel

/-- Afterwards there is a directory at the place of the manifest. -/
theorem at?_detourSave :
    detourSave.2.disk.at? (nowhere.disk.place
      ((root detourSettings Dag.threeTasks.toConfig).descend [Manifest.fileName])) =
        some .directory := by
  decide +kernel

/-- So the manifest cannot be read. -/
theorem isOk_read_detourSave :
    (detourSave.2.disk.read
      ((root detourSettings Dag.threeTasks.toConfig).descend [Manifest.fileName])).isOk =
      false := by
  decide +kernel

/-- A save that fails can leave a directory where a file belongs and nothing was: the place from
which the path of the folder leads up is made on the way to the folder. -/
theorem not_forall_firstWritten :
    ¬∀ (settings : Settings) (p : Payload) (c : Config) (w w' : World) (e : Failure),
      p.validate = .ok c →
        (saveConfig settings c : ExceptT Failure (StateM World) Status).run w = (.error e, w') →
          (∀ n path, w.faults n (.remove path) = none) →
            (∀ f ∈ projectFiles settings c, ∀ n, w.journal.length ≤ n →
              w.disk.at? (w.disk.place (temporaryPath (filePath (root settings c) f) n)) = none) →
              ∃ k < (projectFiles settings c).length,
                FirstWritten (root settings c) (projectFiles settings c) w.journal.length k w.disk
                  w'.disk := by
  intro h
  have hvalid : Dag.threeTasks.validate = .ok Dag.threeTasks.toConfig := by rfl
  have hfailed := isOk_detourSave
  cases hresult : detourSave.1 with
  | ok status =>
      rw [hresult] at hfailed
      cases hfailed
  | error e =>
      have hrun : (saveConfig detourSettings Dag.threeTasks.toConfig :
          ExceptT Failure (StateM World) Status).run nowhere = (.error e, detourSave.2) := by
        rw [← hresult]
        exact (Prod.eta detourSave).symm
      obtain ⟨k, -, hfirst⟩ := h detourSettings Dag.threeTasks _ nowhere _ e hvalid hrun
        (fun _ _ => rfl) fun f hf n _ =>
          at?_temporaryPath_eq_none (fun _ hentry => absurd hentry List.not_mem_nil) hf _ n
      obtain ⟨f, hf, hpath⟩ : ∃ f ∈ projectFiles detourSettings Dag.threeTasks.toConfig,
          f.path = [Manifest.fileName] := ⟨_, List.mem_cons_self, rfl⟩
      rcases hfirst.read_or_kept hf with hread | hkept
      · have hunread := isOk_read_detourSave
        rw [filePath, hpath] at hread
        rw [hread] at hunread
        cases hunread
      · rw [filePath, hpath, at?_detourSave, at?_nowhere] at hkept
        cases hkept

end DagScaffold.Store
