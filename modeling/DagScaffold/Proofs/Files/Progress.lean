import Mathlib
import DagScaffold.Proofs.Files.Calls

/-!
# Runs whose calls fail for a reason

When no call fails by itself, what stands on the disk decides which calls fail. A directory can be
made as long as directories or nothing are on the way to it, and a file can be replaced as long as
no directory is at its place or at that of the temporary file.

* `Passable`, `Stands` : ways that lead over no file, and ways that are there;
* `succeeds_ensureDirectory`, `succeeds_replaceFile` : the two activities.
-/

namespace DagScaffold.Files

open Disk

/-! ## Ways -/

/-- Whether a way starts at a directory and leads over directories and places where nothing is. -/
structure Passable (d : Disk) (p : Path) : Prop where
  start : d.at? (d.start p) = some .directory
  way : ∀ l, World.OnTheWay d p l → d.at? l = some .directory ∨ d.at? l = none

/-- Whether a way leads over directories only, the last place included. -/
def Stands (d : Disk) (p : Path) : Prop :=
  ∀ l, World.OnTheWay d p l → d.at? l = some .directory

section Ways

variable {d d' : Disk} {p : Path}

theorem OnTheWay.of_grown {places : Location → Prop} (h : Grown places d d') {l : Location}
    (hl : World.OnTheWay d' p l) : World.OnTheWay d p l := by
  obtain ⟨parts, hparts, rfl⟩ := hl
  exact ⟨parts, hparts, by rw [start, start, h.workingDirectory]⟩

/-- New directories are in nobody's way. -/
theorem Passable.grown (hp : Passable d p) {places : Location → Prop} (h : Grown places d d') :
    Passable d' p := by
  refine ⟨?_, fun l hl => ?_⟩
  · have hstart : d'.start p = d.start p := by rw [Disk.start, Disk.start, h.workingDirectory]
    rw [hstart]
    exact h.keepsDirectories _ hp.start
  · rcases h.objects l with hsame | ⟨-, -, hnew⟩
    · rw [hsame]
      exact hp.way l (OnTheWay.of_grown h hl)
    · exact Or.inl hnew

/-- A directory stands as long as no directory goes away. -/
theorem Stands.kept (hp : Stands d p) (h : KeepsDirectories d d')
    (hstart : d'.workingDirectory = d.workingDirectory) : Stands d' p := by
  rintro l ⟨parts, hparts, rfl⟩
  refine h _ (hp _ ⟨parts, hparts, ?_⟩)
  rw [start, start, hstart]

/-- A passable way fails to lead somewhere for one reason only. -/
theorem Passable.locate_eq (h : Passable d p) :
    d.locate p = .ok (d.place p) ∨ d.locate p = .error .notFound := by
  have hwalk (l : Location) (parts : List Part)
      (hway : ∀ front, front <+: parts →
        d.at? (placeFrom l front) = some .directory ∨ d.at? (placeFrom l front) = none) :
      d.walk l parts = .ok (placeFrom l parts) ∨ d.walk l parts = .error .notFound := by
    induction parts generalizing l with
    | nil => exact Or.inl rfl
    | cons part parts ih =>
        have hrest := ih (placeFrom l [part]) fun front hfront => by
          rw [← placeFrom_cons]
          exact hway (part :: front) (List.cons_prefix_cons.mpr ⟨rfl, hfront⟩)
        have hfirst : d.at? l = some .directory ∨ d.at? l = none := hway [] List.nil_prefix
        rw [walk_cons, placeFrom_cons l part parts]
        rcases hfirst with hdirectory | hnone
        · rw [requireDirectory_eq_ok_iff.mpr hdirectory]
          exact hrest
        · have hmissing : d.requireDirectory l = .error .notFound := by rw [requireDirectory, hnone]
          rw [hmissing]
          exact Or.inr rfl
  exact hwalk _ _ fun front hfront => h.way _ ⟨front, hfront, rfl⟩

/-- Behind a way that is there every entry can be reached. -/
theorem Stands.locate_eq (h : Stands d p.parent) : d.locate p = .ok (d.place p) := by
  refine walk_eq_ok_iff.mpr fun front part hfront => h _ ⟨front, ?_, rfl⟩
  obtain ⟨rest, hrest⟩ := hfront
  have hne : [part] ++ rest ≠ [] := List.cons_ne_nil part rest
  show front <+: p.parts.dropLast
  rw [← hrest, List.append_assoc, List.dropLast_append_of_ne_nil hne]
  exact List.prefix_append _ _

/-- A way that is there as soon as the path leads to a directory. -/
theorem stands_of_locate (h : d.locate p = .ok (d.place p))
    (hat : d.at? (d.place p) = some .directory) :
    Stands d p := by
  rintro l ⟨front, ⟨rest, hrest⟩, rfl⟩
  cases rest with
  | nil =>
      rw [List.append_nil] at hrest
      rw [hrest]
      exact hat
  | cons part rest =>
      refine walk_eq_ok_iff.mp h front part ⟨rest, ?_⟩
      rw [← hrest, List.append_assoc, List.singleton_append]

/-- What is asked for and found to be a directory stands. -/
theorem stands_of_isDirectory (h : d.isDirectory p = true) : Stands d p := by
  unfold Disk.isDirectory at h
  cases hfind : d.find p with
  | error e => simp [hfind] at h
  | ok found =>
      obtain ⟨l, o⟩ := found
      rw [hfind] at h
      cases o with
      | file content => cases h
      | directory =>
          obtain ⟨hlocate, rfl, hat, -⟩ := find_eq_ok hfind
          exact stands_of_locate hlocate hat

/-- A directory that stands is found at its place. -/
theorem Stands.find_eq (h : Stands d p) : d.find p = .ok (d.place p, .directory) := by
  have hlocate : d.locate p = .ok (d.place p) := by
    refine walk_eq_ok_iff.mpr fun front part hfront => h _ ⟨front, ?_, rfl⟩
    exact (List.prefix_append front [part]).trans hfront
  have hat : d.at? (d.place p) = some .directory := h _ ⟨p.parts, List.prefix_rfl, rfl⟩
  rw [find, hlocate, Except.bind]
  rw [hat]

theorem Stands.isDirectory (h : Stands d p) : d.isDirectory p = true := by
  rw [Disk.isDirectory, h.find_eq]

/-- At the end of a passable way there is something or nothing is found. -/
theorem Passable.find_eq (h : Passable d p) (hnone : d.at? (d.place p) = none) :
    d.find p = .error .notFound := by
  unfold find
  rcases h.locate_eq with hlocate | hlocate
  · rw [hlocate, Except.bind]
    rw [hnone]
  · rw [hlocate]
    rfl

end Ways

namespace World

/-! ## Calls that fail for a reason -/

/-- Two things that hold after a run hold after it together. -/
theorem After.and {α : Type} {x : StateM World α} {w : World} {post post' : α → World → Prop}
    (h : After x w post) (h' : After x w post') : After x w fun a w' => post a w' ∧ post' a w' :=
  ⟨h, h'⟩

theorem After.map {α β : Type} {f : α → β} {x : StateM World α} {w : World}
    {post : β → World → Prop} (h : After x w fun a w' => post (f a) w') :
    After (f <$> x) w post :=
  h

/-- Whether no call fails by itself. -/
def Faultless (w : World) : Prop :=
  ∀ n call, w.faults n call = none

/-- Calls do not begin to fail during a run. -/
theorem Faultless.of_faults_eq {w w' : World} (h : Faultless w) (hsame : w'.faults = w.faults) :
    Faultless w' := by
  intro n call
  rw [hsame]
  exact h n call

/-- A call that changes the disk and does not fail by itself. -/
theorem perform_change {call : Call} {operation : Disk → Except Error Disk} {w : World}
    (h : w.faults w.journal.length call = none) :
    After (perform call fun d => (operation d).map fun d => ((), d)) w fun r w' =>
      w'.faults = w.faults ∧
        match operation w.disk with
        | .ok d => r = .ok () ∧ w'.disk = d
        | .error e => r = .error e ∧ w'.disk = w.disk := by
  refine ⟨rfl, ?_⟩
  unfold perform outcome
  rw [h]
  dsimp only
  cases operation w.disk with
  | ok d => exact ⟨rfl, rfl⟩
  | error e => exact ⟨rfl, rfl⟩

/-! ## Making directories -/

section Directories

variable {w : World} {p : Path}

/-- Looking for a directory whose way is there finds it. -/
theorem finds_directory (hfaults : Faultless w) (h : Stands w.disk p) (e : Error) :
    After (do return if ← FileSystem.isDirectory p then Except.ok () else .error e) w fun r w' =>
      r = .ok () ∧ w'.disk = w.disk := by
  have hlook : After (FileSystem.isDirectory p) w fun b w' => b = true ∧ w'.disk = w.disk := by
    have hcall : perform (.isDirectory p) (fun d => .ok (d.isDirectory p, d)) w =
        (.ok (w.disk.isDirectory p), _) :=
      @perform_look _ _ (fun d => .ok (d.isDirectory p)) w (hfaults _ _)
    refine After.bind (show After _ w fun r w' => r = .ok true ∧ w'.disk = w.disk from ?_) ?_
    · rw [After, hcall, h.isDirectory]
      exact ⟨rfl, rfl⟩
    · rintro _ w' ⟨rfl, hw'⟩
      exact ⟨rfl, hw'⟩
  refine After.bind hlook ?_
  rintro _ w' ⟨rfl, hw'⟩
  exact ⟨rfl, hw'⟩

/-- A directory in one that is there is made, or found when it is already there. -/
theorem makes_last (hfaults : Faultless w) (hp : Passable w.disk p)
    (hlocate : w.disk.locate p = .ok (w.disk.place p)) :
    After (FileSystem.makeDirectory p) w fun r w' => Stands w'.disk p ∧ Faultless w' ∧
      (r = .ok () ∨ r = .error .alreadyExists) := by
  refine (@perform_change (.makeDirectory p) (fun d => d.makeDirectory p) w (hfaults _ _)).mono ?_
  rintro r w' ⟨hsame, hresult⟩
  have hlast := hp.way _ ⟨p.parts, List.prefix_rfl, rfl⟩
  change w.disk.at? (w.disk.place p) = _ ∨ w.disk.at? (w.disk.place p) = _ at hlast
  rcases hlast with hat | hat
  · have hmake : w.disk.makeDirectory p = .error .alreadyExists := by
      rw [makeDirectory, hlocate, Except.bind]
      rw [hat]
    rw [hmake] at hresult
    obtain ⟨rfl, hdisk⟩ := hresult
    refine ⟨?_, hfaults.of_faults_eq hsame, Or.inr rfl⟩
    rw [hdisk]
    exact stands_of_locate hlocate hat
  · have hmake : w.disk.makeDirectory p = .ok (w.disk.put (w.disk.place p) .directory) := by
      rw [makeDirectory, hlocate, Except.bind]
      rw [hat]
    obtain ⟨-, hchanged⟩ := changedAt_of_makeDirectory hmake
    have hgrown := grown_of_makeDirectory hmake
    rw [hmake] at hresult
    obtain ⟨rfl, hdisk⟩ := hresult
    refine ⟨?_, hfaults.of_faults_eq hsame, Or.inl rfl⟩
    rw [hdisk]
    have hplace := @place_congr w.disk _ hgrown.workingDirectory p
    refine stands_of_locate ?_ ?_
    · rw [hplace]
      exact locate_of_keepsDirectories hgrown.keepsDirectories hgrown.workingDirectory hlocate
    · rw [hplace, hchanged.objects, if_pos rfl]

/-- A directory in one that is not there is not made. -/
theorem misses_parent (hfaults : Faultless w) (hlocate : w.disk.locate p = .error .notFound) :
    After (FileSystem.makeDirectory p) w fun r w' =>
      r = .error .notFound ∧ w'.disk = w.disk ∧ Faultless w' := by
  refine (@perform_change (.makeDirectory p) (fun d => d.makeDirectory p) w (hfaults _ _)).mono ?_
  rintro r w' ⟨hsame, hresult⟩
  rw [makeDirectory, hlocate] at hresult
  exact ⟨hresult.1, hresult.2, hfaults.of_faults_eq hsame⟩

/-- A directory can be made as long as the way to it is passable. -/
theorem succeeds_ensureParts {absolute : Bool} {parts : List Part} (hfaults : Faultless w)
    (hp : Passable w.disk ⟨absolute, parts.reverse, false⟩) :
    After (ensureParts absolute parts) w fun r w' =>
      r = .ok () ∧ Stands w'.disk ⟨absolute, parts.reverse, false⟩ := by
  induction parts generalizing w with
  | nil =>
      refine After.pure ⟨rfl, ?_⟩
      rintro l ⟨parts, hparts, rfl⟩
      rw [List.prefix_nil.mp hparts]
      exact hp.start
  | cons part above ih =>
      set path : Path := ⟨absolute, (part :: above).reverse, false⟩ with hpath
      rcases hp.locate_eq with hlocate | hlocate
      · -- the directories above are there
        refine After.bind (makes_last hfaults hp hlocate) ?_
        rintro r v ⟨hstands, hv, rfl | rfl⟩
        · exact ⟨rfl, hstands⟩
        · refine (finds_directory hv hstands .alreadyExists).mono ?_
          rintro r v' ⟨hr, hdisk⟩
          exact ⟨hr, hdisk ▸ hstands⟩
      · -- they are made first, and the attempt is repeated
        refine After.bind (misses_parent hfaults hlocate) ?_
        rintro _ v ⟨rfl, hv, hfaults'⟩
        have hparent : Passable v.disk ⟨absolute, above.reverse, false⟩ := by
          rw [hv]
          refine ⟨hp.start, ?_⟩
          rintro l ⟨parts, hparts, rfl⟩
          refine hp.way _ ⟨parts, hparts.trans ?_, rfl⟩
          rw [hpath, List.reverse_cons]
          exact List.prefix_append _ _
        have habove : After (ensureParts absolute above) v fun r v' => r = .ok () ∧
            Stands v'.disk ⟨absolute, above.reverse, false⟩ ∧ Passable v'.disk path ∧
            Faultless v' := by
          refine ((ih hfaults' hparent).and (after_ensureParts absolute above v)).mono ?_
          rintro r v' ⟨⟨hr, hstands⟩, hgrown⟩
          refine ⟨hr, hstands, ?_, hfaults'.of_faults_eq hgrown.faults⟩
          rw [← hv] at hp
          exact hp.grown hgrown.disk
        refine After.bind habove ?_
        rintro _ v' ⟨rfl, hstands, hpassable, hfaults''⟩
        have hdropped : path.parent = ⟨absolute, above.reverse, false⟩ := by
          simp [hpath, Path.parent]
        rw [← hdropped] at hstands
        refine After.bind (makes_last hfaults'' hpassable hstands.locate_eq) ?_
        rintro r v'' ⟨hstands', hfaults''', rfl | rfl⟩
        · exact ⟨rfl, hstands'⟩
        · refine (finds_directory hfaults''' hstands' .alreadyExists).mono ?_
          rintro r v''' ⟨hr, hdisk⟩
          exact ⟨hr, hdisk ▸ hstands'⟩

/-- Without failing calls a directory is made where nothing is in its way. -/
theorem succeeds_ensureDirectory (hfaults : Faultless w) (hp : Passable w.disk p) :
    After (ensureDirectory p) w fun r w' => r = .ok () ∧ Stands w'.disk p := by
  have h := @succeeds_ensureParts w p.absolute p.parts.reverse hfaults
  rw [List.reverse_reverse] at h
  exact h ⟨hp.start, hp.way⟩

end Directories

/-! ## Replacing a file -/

/-- Whether a place can take a file: no directory is there, and none will be when the way to a
directory is made. -/
def Takes (d : Disk) (directory : Path) (l : Location) : Prop :=
  d.at? l ≠ some .directory ∧ ¬OnTheWay d directory l

/-- A place that takes a file still does when directories were made elsewhere. -/
theorem Takes.grown {d d' : Disk} {directory : Path} {l : Location} (h : Takes d directory l)
    (hgrown : Grown (OnTheWay d directory) d d') : d'.at? l ≠ some .directory := by
  rcases hgrown.objects l with hsame | ⟨hway, -⟩
  · rw [hsame]
    exact h.1
  · exact absurd hway h.2

/-- A file is written beside its place and moved there when the directory is there. -/
theorem succeeds_moveInto {temporary target : Path} (content : String) {w : World}
    (hfaults : Faultless w) (htemporary : w.disk.locate temporary = .ok (w.disk.place temporary))
    (hwritable : w.disk.at? (w.disk.place temporary) ≠ some .directory)
    (hslash : temporary.directoryOnly = false)
    (htarget : w.disk.locate target = .ok (w.disk.place target))
    (hfile : w.disk.at? (w.disk.place target) ≠ some .directory) :
    After (moveInto temporary target content) w fun r _ => r = .ok () := by
  set written := w.disk.put (w.disk.place temporary) (.file (.text content))
  have hwrite : w.disk.write temporary (.text content) = .ok written := by
    rw [write, htemporary, Except.bind]
    cases hat : w.disk.at? (w.disk.place temporary) with
    | none => simp [hslash, written]
    | some o =>
        cases o with
        | directory => exact absurd hat hwritable
        | file old => simp [hslash, written]
  obtain ⟨-, hchanged, -, -⟩ := changedAt_of_write hwrite
  have hkept := hchanged.keepsDirectories hwritable
  have hrename : ∃ d, written.rename temporary target = .ok d := by
    have hfind : written.find temporary = .ok (w.disk.place temporary, .file (.text content)) := by
      rw [find, locate_of_keepsDirectories hkept hchanged.workingDirectory htemporary, Except.bind]
      rw [hchanged.objects, if_pos rfl]
      simp [hslash]
    have hfree : written.at? (w.disk.place target) ≠ some .directory := by
      rw [hchanged.objects]
      split_ifs
      · simp
      · exact hfile
    rw [rename, hfind, Except.bind]
    dsimp only
    rw [locate_of_keepsDirectories hkept hchanged.workingDirectory htarget, Except.bind]
    cases hat : written.at? (w.disk.place target) with
    | none => exact ⟨_, rfl⟩
    | some o =>
        cases o with
        | directory => exact absurd hat hfree
        | file old => exact ⟨_, rfl⟩
  refine After.bind (@perform_change (.write temporary content)
    (fun d => d.write temporary (.text content)) w (hfaults _ _)) ?_
  rintro r v ⟨hsame, hresult⟩
  rw [hwrite] at hresult
  obtain ⟨rfl, hdisk⟩ := hresult
  refine After.bind (@perform_change (.rename temporary target)
    (fun d => d.rename temporary target) v (by rw [hsame]; exact hfaults _ _)) ?_
  rintro r' v' ⟨-, hresult'⟩
  obtain ⟨d, hd⟩ := hrename
  rw [hdisk, hd] at hresult'
  rw [hresult'.1]
  exact After.pure rfl

/-- A file can be replaced as long as the way to its directory is passable and its place and that of
the temporary file can take files. -/
theorem succeeds_replaceFile {target : Path} (content : String) {w : World} (hfaults : Faultless w)
    (hp : Passable w.disk target.parent)
    (htarget : Takes w.disk target.parent (w.disk.place target))
    (htemporary : ∀ n, Takes w.disk target.parent (w.disk.place (temporaryPath target n))) :
    After (replaceFile target content) w fun r _ => r = .ok () := by
  have hensure : After (ensureDirectory target.parent) w fun r v => r = .ok () ∧
      Stands v.disk target.parent ∧ Grown (OnTheWay w.disk target.parent) w.disk v.disk ∧
        Faultless v := by
    refine ((succeeds_ensureDirectory hfaults hp).and (after_ensureDirectory target.parent w)).mono
      ?_
    rintro r v ⟨⟨hr, hstands⟩, hgrown⟩
    exact ⟨hr, hstands, hgrown.disk, hfaults.of_faults_eq hgrown.faults⟩
  refine After.bind hensure ?_
  rintro _ v ⟨rfl, hstands, hgrown, hfaults'⟩
  have htag : After FileSystem.freshTag v fun tag v' =>
      tag = toString v.journal.length ∧ v' = v := ⟨rfl, rfl⟩
  refine After.bind htag fun tag u hu => ?_
  rw [hu.1, hu.2]
  have hplace (p : Path) : v.disk.place p = w.disk.place p := place_congr hgrown.workingDirectory p
  have hbeside : (temporaryPath target v.journal.length).parent = target.parent := by
    simp [temporaryPath, Path.sibling, Path.child, Path.parent]
  refine succeeds_moveInto content hfaults' ?_ ?_ rfl hstands.locate_eq ?_
  · rw [← hbeside] at hstands
    exact hstands.locate_eq
  · show v.disk.at? (v.disk.place (temporaryPath target v.journal.length)) ≠ _
    rw [hplace]
    exact (htemporary _).grown hgrown
  · rw [hplace]
    exact htarget.grown hgrown

end World

end DagScaffold.Files
