import Mathlib
import DagScaffold.Proofs.Confinement
import DagScaffold.Proofs.Files.Progress

/-!
# When saving a project succeeds

A project is saved where nothing but directories is on the way to its own and where no directory is
at the place of one of its files.

* `Fits` : a disk that has room for a project;
* `succeeds_saveConfig` : saving a project there.
-/

namespace DagScaffold.Store

open DagScaffold.Files

open Disk World

/-! ## Room for a project -/

/-- Whether a disk has room for a project: nothing is in the way of its directories, and no
directory is or comes to be at the place of one of its files or of its temporary files, of which
there are none. -/
structure Fits (settings : Settings) (config : Config) (d : Disk) : Prop where
  passable : ∀ directory ∈ directories, Passable d ((root settings config).descend directory)
  files : ∀ f ∈ projectFiles settings config,
    d.at? (d.place (filePath (root settings config) f)) ≠ some .directory ∧
      ¬Way settings config d (d.place (filePath (root settings config) f))
  temporaries : ∀ f ∈ projectFiles settings config, ∀ n,
    d.at? (d.place (temporaryPath (filePath (root settings config) f) n)) = none ∧
      ¬Way settings config d (d.place (temporaryPath (filePath (root settings config) f) n))

section

variable {settings : Settings} {config : Config} {d : Disk} {w : World}

/-- Where a project fits its files have their places. -/
theorem Fits.layout (h : Fits settings config d) (first : Nat) :
    Layout (Way settings config d) (Temporary settings config d first) (root settings config)
      (projectFiles settings config) d first :=
  layout_projectFiles fun f hf n _ => (h.temporaries f hf n).1

/-- What holds on the disk when some files are written holds of a way: it leads over no file. -/
theorem Fits.passable_of_saved (h : Fits settings config d) {written : List ProjectFile} {d' : Disk}
    (hwritten : ∀ f ∈ written, f ∈ projectFiles settings config)
    (hsaved : Saved (Way settings config d) (root settings config) written d d')
    {directory : List String} (hdirectory : directory ∈ directories) :
    Passable d' ((root settings config).descend directory) := by
  have hstart : d'.start ((root settings config).descend directory) =
      d.start ((root settings config).descend directory) := by
    rw [start, start, hsaved.workingDirectory]
  have hsame (l : Location) (hl : OnTheWay d ((root settings config).descend directory) l) :
      d'.at? l = d.at? l ∨ d'.at? l = some .directory := by
    have hway : Way settings config d l := ⟨directory, hdirectory, hl⟩
    rcases hsaved.others l fun f hf heq => (h.files f (hwritten f hf)).2 (heq ▸ hway) with
      hsame | ⟨-, -, hnew⟩
    · exact Or.inl hsame
    · exact Or.inr hnew
  have hpassable := h.passable directory hdirectory
  refine ⟨?_, fun l hl => ?_⟩
  · rw [hstart]
    rcases hsame _ ⟨[], List.nil_prefix, rfl⟩ with heq | hnew
    · exact heq.trans hpassable.start
    · exact hnew
  · obtain ⟨parts, hparts, rfl⟩ := hl
    rw [hstart]
    rcases hsame _ ⟨parts, hparts, rfl⟩ with heq | hnew
    · rw [heq]
      exact hpassable.way _ ⟨parts, hparts, rfl⟩
    · exact Or.inl hnew

/-! ## The steps -/

theorem succeeds_ensureSubdirectories (h : Fits settings config d) {names : List String}
    (hnames : ∀ name ∈ names, [name] ∈ directories) (hfaults : Faultless w)
    (hgrown : Grown (Way settings config d) d w.disk) :
    After (names.forM fun name => lift (ensureDirectory ((root settings config).child name)) :
        ExceptT Failure (StateM World) Unit).run w fun r w' =>
      r = .ok () ∧ ∀ name ∈ names, Stands w'.disk ((root settings config).child name) := by
  induction names generalizing w with
  | nil => exact After.pure ⟨rfl, fun _ hname => absurd hname List.not_mem_nil⟩
  | cons name names ih =>
      obtain ⟨hname, hrest⟩ := List.forall_mem_cons.mp hnames
      have hpassable : Passable w.disk ((root settings config).child name) :=
        (h.passable [name] hname).grown hgrown
      have hfirst : After (ensureDirectory ((root settings config).child name)) w fun r v =>
          r = .ok () ∧ Stands v.disk ((root settings config).child name) ∧ Faultless v ∧
            Grown (Way settings config d) d v.disk := by
        refine ((succeeds_ensureDirectory hfaults hpassable).and
          (after_ensureDirectory ((root settings config).child name) w)).mono ?_
        rintro r v ⟨⟨hr, hstands⟩, hleads⟩
        refine ⟨hr, hstands, hfaults.of_faults_eq hleads.faults,
          hgrown.trans (hleads.disk.mono fun l hl => ?_)⟩
        exact ⟨[name], hname, OnTheWay.of_grown hgrown hl⟩
      refine After.bindExcept (After.lift hfirst) ?_
      rintro _ v ⟨_, rfl, rfl, hstands, hfaults', hgrown'⟩
      have hkept := @after_ensureSubdirectories settings config d names hrest v
        hgrown'.workingDirectory
      have hothers := ih hrest hfaults' hgrown'
      exact ⟨hothers.1, List.forall_mem_cons.mpr ⟨hstands.kept hkept.disk.keepsDirectories
        hkept.disk.workingDirectory, hothers.2⟩⟩

/-- Without failing calls a file is written where the project fits. -/
theorem succeeds_writeFile (h : Fits settings config d) {written rest : List ProjectFile}
    {f : ProjectFile} (hall : projectFiles settings config = written ++ f :: rest)
    (hfaults : Faultless w)
    (hsaved : Saved (Way settings config d) (root settings config) written d w.disk) :
    After (writeFile (root settings config) f : ExceptT Failure (StateM World) Unit).run w
      fun r _ => r = .ok () := by
  have hwritten : ∀ g ∈ written, g ∈ projectFiles settings config := fun g hg => by
    rw [hall]
    exact List.mem_append_left _ hg
  have hf : f ∈ projectFiles settings config := by
    rw [hall]
    exact List.mem_append_right _ List.mem_cons_self
  have hlayout := h.layout 0
  have hnamed := hlayout.apart.named f hf
  have hdirectory := dropLast_mem_directories hf
  obtain ⟨hparts, habsolute⟩ := @parent_filePath (root settings config) f hnamed
  have hplace (p : Path) : w.disk.place p = d.place p := place_congr hsaved.workingDirectory p
  -- the directory of the file is named in two ways
  have hway {d' : Disk} {l : Location}
      (hl : OnTheWay d' (filePath (root settings config) f).parent l) :
      OnTheWay d' ((root settings config).descend f.path.dropLast) l := by
    obtain ⟨parts, hprefix, rfl⟩ := hl
    exact ⟨parts, hparts ▸ hprefix, by rw [start, start, habsolute]⟩
  have hpassable : Passable w.disk (filePath (root settings config) f).parent := by
    have hdescend := h.passable_of_saved hwritten hsaved hdirectory
    refine ⟨?_, fun l hl => hdescend.way l (hway hl)⟩
    have hstart := hdescend.start
    rwa [start, ← habsolute] at hstart
  -- a place that is none of the written files and not on the way is as it was
  have htakes {l : Location} (hl : ∀ g ∈ written, l ≠ d.place (filePath (root settings config) g))
      (hat : d.at? l ≠ some .directory) (hoff : ¬Way settings config d l) :
      Takes w.disk (filePath (root settings config) f).parent l := by
    refine ⟨?_, fun hl' => hoff ?_⟩
    · rcases hsaved.others l hl with hsame | ⟨hnew, -⟩
      · rwa [hsame]
      · exact absurd hnew hoff
    · obtain ⟨parts, hprefix, rfl⟩ := hway hl'
      exact ⟨f.path.dropLast, hdirectory, parts, hprefix, by
        rw [start, start, hsaved.workingDirectory]⟩
  have htarget : Takes w.disk (filePath (root settings config) f).parent
      (w.disk.place (filePath (root settings config) f)) := by
    rw [hplace]
    refine htakes (fun g hg heq => ?_) (h.files f hf).1 (h.files f hf).2
    rw [place_filePath, place_filePath] at heq
    have hdistinct := hlayout.apart.distinct
    rw [hall, List.map_append, List.map_cons] at hdistinct
    exact List.disjoint_of_nodup_append hdistinct (List.mem_map_of_mem hg)
      (List.append_cancel_left heq ▸ List.mem_cons_self)
  have htemporary (n : Nat) : Takes w.disk (filePath (root settings config) f).parent
      (w.disk.place (temporaryPath (filePath (root settings config) f) n)) := by
    rw [hplace]
    obtain ⟨hnone, hoff⟩ := h.temporaries f hf n
    exact htakes (fun g hg => hlayout.place_ne hf (hwritten g hg) n) (by simp [hnone]) hoff
  refine (After.lift (succeeds_replaceFile f.content hfaults hpassable htarget htemporary)).mono ?_
  rintro _ _ ⟨r, rfl, rfl⟩
  rfl

/-- Without failing calls all files are written where the project fits. -/
theorem succeeds_writeFiles (h : Fits settings config d) {written files : List ProjectFile}
    (hall : projectFiles settings config = written ++ files) (hfaults : Faultless w)
    (hsaved : Saved (Way settings config d) (root settings config) written d w.disk) :
    After (files.forM (writeFile (root settings config)) : ExceptT Failure (StateM World) Unit).run
      w fun r _ => r = .ok () := by
  induction files generalizing written w with
  | nil => exact After.pure rfl
  | cons f files ih =>
      have hfirst : After (writeFile (root settings config) f :
          ExceptT Failure (StateM World) Unit).run w fun r v => r = .ok () ∧ Faultless v ∧
            Saved (Way settings config d) (root settings config) (written ++ [f]) d v.disk := by
        have hok := succeeds_writeFile h hall hfaults hsaved
        have hafter := after_writeFile (h.layout 0) hall (Nat.zero_le _) hsaved
        rw [After] at hok hafter
        rw [hok] at hafter
        exact ⟨hok, hfaults.of_faults_eq hafter.1.faults, hafter.2⟩
      refine After.bindExcept hfirst ?_
      rintro _ v ⟨rfl, hfaults', hsaved'⟩
      refine ih ?_ hfaults' hsaved'
      rw [hall, List.append_assoc, List.singleton_append]

/-! ## Saving -/

/-- A project is saved where there is room for it, and its directories are there afterwards. -/
theorem succeeds_saveConfig (husable : Project.nameProblem? config.name = none)
    (hfaults : Faultless w) (hfits : Fits settings config w.disk) {existed : Bool}
    (hexists : w.disk.exists? (root settings config) = .ok existed) :
    After (saveConfig settings config : ExceptT Failure (StateM World) Status).run w fun r w' =>
      r = .ok ⟨if existed then .updated else .created, settings.projectDir config.name,
        (projectFiles settings config).map ProjectFile.pathText, w'.clock⟩ ∧
      ∀ name ∈ subdirectories, Stands w'.disk ((root settings config).child name) := by
  have hfolder : After (ExceptT.mk (pure (folder settings config.name)) :
      ExceptT Failure (StateM World) String).run w fun r v =>
        r = .ok (settings.projectDir config.name) ∧ v = w :=
    After.pure ⟨folder_of_usable settings husable, rfl⟩
  refine After.bindExcept hfolder ?_
  rintro _ v ⟨rfl, hv⟩
  rw [hv]
  have hlook : After (FileSystem.exists? (root settings config)) w fun r v =>
      r = .ok existed ∧ v.disk = w.disk ∧ Faultless v := by
    have hcall : (FileSystem.exists? (root settings config) : StateM World (Except Error Bool)) w =
        (w.disk.exists? (root settings config), _) :=
      perform_look (hfaults _ _)
    rw [After, hcall]
    exact ⟨hexists, rfl, hfaults⟩
  refine After.bindExcept (After.lift hlook) ?_
  rintro _ v ⟨_, rfl, rfl, hdisk, hfaults'⟩
  have hsubdirectories : ∀ name ∈ subdirectories, [name] ∈ directories := by decide
  have hrefl : Grown (Way settings config w.disk) w.disk v.disk := by
    rw [hdisk]
    exact Grown.refl _ _
  have hensured : After (subdirectories.forM fun name =>
        lift (ensureDirectory ((root settings config).child name)) :
          ExceptT Failure (StateM World) Unit).run v fun r v' => r = .ok () ∧ Faultless v' ∧
      (∀ name ∈ subdirectories, Stands v'.disk ((root settings config).child name)) ∧
        Grown (Way settings config w.disk) w.disk v'.disk := by
    have hok := succeeds_ensureSubdirectories hfits hsubdirectories hfaults' hrefl
    have hleads := @after_ensureSubdirectories settings config w.disk subdirectories
      hsubdirectories v hrefl.workingDirectory
    refine (hok.and hleads).mono ?_
    rintro r v' ⟨⟨hr, hstands⟩, hleads⟩
    exact ⟨hr, hfaults'.of_faults_eq hleads.faults, hstands, hrefl.trans hleads.disk⟩
  refine After.bindExcept hensured ?_
  rintro _ v' ⟨rfl, hfaults'', hstands, hgrown⟩
  have hwritten : After ((projectFiles settings config).forM (writeFile (root settings config)) :
      ExceptT Failure (StateM World) Unit).run v' fun r v'' => r = .ok () ∧
        ∀ name ∈ subdirectories, Stands v''.disk ((root settings config).child name) := by
    have hok := succeeds_writeFiles hfits (List.nil_append _).symm hfaults''
      ((Saved.nil w.disk).grown hgrown)
    have hworks := @works_forM (root settings config) (projectFiles settings config) _
      (projectFiles settings config) _ (fun f => [filePath _ f])
      (fun f hf => works_writeFile hf ((apart_projectFiles settings config).named f hf)
        (dropLast_mem_directories hf)) v'
    refine (hok.and hworks).mono ?_
    rintro r v'' ⟨hr, calls, hmakes, -, -⟩
    obtain ⟨-, -, -, -, hkept⟩ := @Makes.kept _ _ _ (fun _ => True) (fun _ => True) hmakes
      (fun _ _ _ _ => trivial) (fun _ _ _ _ => trivial)
    exact ⟨hr, fun name hname =>
      (hstands name hname).kept hkept.keepsDirectories hkept.workingDirectory⟩
  refine After.bindExcept hwritten ?_
  rintro _ v'' ⟨rfl, hstands'⟩
  have hnow : After (ExceptT.lift FileSystem.now : ExceptT Failure (StateM World) Instant).run v''
      fun r u => r = .ok v''.clock ∧ u = v'' := ⟨rfl, rfl⟩
  refine After.bindExcept hnow ?_
  rintro _ u ⟨rfl, hu⟩
  rw [hu]
  exact After.pure ⟨rfl, hstands'⟩

end

end DagScaffold.Store
