import Mathlib
import DagScaffold.Proofs.Files.Runs

/-!
# The calls of a run

A call leaves the disk as it is or does what it asks for, and what it asks for names the places that
it can change. So a list of the calls of a run says what the run can have done, whatever stands on
the disk and whichever calls fail.

* `Call.Does`, `Call.files` : what a call can do to a disk, and the places of the files that it can
  change;
* `World.Makes` : the calls between two worlds;
* `Kept`, `Kept.of_follows` : what a run leaves alone, by its calls;
* `calls_ensureDirectory`, `calls_moveInto`, `calls_replaceFile` : the calls of the two activities.
-/

namespace DagScaffold.Files

open Disk

/-! ## What a call does -/

/-- What a call can do to a disk: nothing, when it only looks or fails, or what it asks for. -/
inductive Call.Does : Call → Disk → Disk → Prop
  | nothing (call : Call) (d : Disk) : Does call d d
  | makeDirectory {p : Path} {d d' : Disk} (h : d.makeDirectory p = .ok d') :
    Does (.makeDirectory p) d d'
  | write {p : Path} {content : String} {d d' : Disk} (h : d.write p (.text content) = .ok d') :
    Does (.write p content) d d'
  | rename {source target : Path} {d d' : Disk} (h : d.rename source target = .ok d') :
    Does (.rename source target) d d'
  | remove {p : Path} {d d' : Disk} (h : d.remove p = .ok d') : Does (.remove p) d d'

/-- The paths of the files that a call makes, replaces or removes. -/
def Call.files : Call → List Path
  | .write p _ => [p]
  | .rename source target => [source, target]
  | .remove p => [p]
  | _ => []

/-- The path of the directory that a call makes. -/
def Call.directory? : Call → Option Path
  | .makeDirectory p => some p
  | _ => none

/-- The path whose file a call replaces in one step. -/
def Call.replaced? : Call → Option Path
  | .rename _ target => some target
  | _ => none

/-- What a run leaves alone: outside some places of files nothing changes but that directories are
made at some other places, and no directory goes away. -/
structure Kept (files directories : Location → Prop) (d d' : Disk) : Prop where
  workingDirectory : d'.workingDirectory = d.workingDirectory
  keepsDirectories : KeepsDirectories d d'
  objects : ∀ l, ¬files l →
    d'.at? l = d.at? l ∨ directories l ∧ d.at? l = none ∧ d'.at? l = some .directory

namespace Kept

variable {files files' directories directories' : Location → Prop} {d d' d'' : Disk}

theorem refl (files directories : Location → Prop) (d : Disk) : Kept files directories d d :=
  ⟨rfl, fun _ h => h, fun _ _ => Or.inl rfl⟩

theorem trans (h : Kept files directories d d') (h' : Kept files directories d' d'') :
    Kept files directories d d'' := by
  refine ⟨h'.workingDirectory.trans h.workingDirectory,
    fun l hl => h'.keepsDirectories l (h.keepsDirectories l hl), fun l hl => ?_⟩
  rcases h'.objects l hl with hsame' | ⟨hplace, hnone', hnew'⟩
  · rw [hsame']
    exact h.objects l hl
  · rcases h.objects l hl with hsame | ⟨-, -, hnew⟩
    · exact Or.inr ⟨hplace, hsame.symm.trans hnone', hnew'⟩
    · rw [hnone'] at hnew
      cases hnew

theorem mono (h : Kept files directories d d') (hfiles : ∀ l, files l → files' l)
    (hdirectories : ∀ l, directories l → directories' l) : Kept files' directories' d d' := by
  refine ⟨h.workingDirectory, h.keepsDirectories, fun l hl => ?_⟩
  rcases h.objects l fun hfile => hl (hfiles l hfile) with hsame | ⟨hplace, hnew⟩
  · exact Or.inl hsame
  · exact Or.inr ⟨hdirectories l hplace, hnew⟩

theorem of_changedAt {l : Location} {o : Option Object} (h : ChangedAt d d' l o)
    (hl : d.at? l ≠ some .directory) : Kept (· = l) directories d d' :=
  ⟨h.workingDirectory, h.keepsDirectories hl, fun l' hl' => Or.inl (by rw [h.objects, if_neg hl'])⟩

end Kept

namespace Disk

/-- No directory comes to be where another object goes away. -/
theorem ChangedAt.ne_directory {d d' : Disk} {l l' : Location} (h : ChangedAt d d' l none)
    (hl' : d.at? l' ≠ some .directory) : d'.at? l' ≠ some .directory := by
  rw [h.objects]
  split_ifs
  · simp
  · exact hl'

/-- A file that is removed leaves its place. -/
theorem changedAt_of_remove {d d' : Disk} {p : Path} (h : d.remove p = .ok d') :
    d.at? (d.place p) ≠ some .directory ∧ ChangedAt d d' (d.place p) none := by
  unfold remove at h
  cases hfind : d.find p with
  | error e =>
      rw [hfind] at h
      cases h
  | ok found =>
      obtain ⟨l, o⟩ := found
      obtain ⟨-, rfl, hat, -⟩ := find_eq_ok hfind
      rw [hfind, Except.bind] at h
      cases o with
      | directory => cases h
      | file content =>
          obtain rfl := Except.ok.inj h
          have hfile : d.at? (d.place p) ≠ some .directory := by simp [hat]
          exact ⟨hfile, changedAt_erase d (ne_nil_of_at? hfile)⟩

end Disk

/-- A call changes the places of its files and of its directory at most. -/
theorem Call.Does.kept {call : Call} {d d' : Disk} (h : call.Does d d') :
    Kept (fun l => ∃ p ∈ call.files, l = d.place p)
      (fun l => ∃ p, call.directory? = some p ∧ l = d.place p) d d' := by
  cases h with
  | nothing => exact Kept.refl _ _ d
  | makeDirectory h =>
      have hgrown := grown_of_makeDirectory h
      refine ⟨hgrown.workingDirectory, hgrown.keepsDirectories, fun l _ => ?_⟩
      rcases hgrown.objects l with hsame | ⟨hplace, hnew⟩
      · exact Or.inl hsame
      · exact Or.inr ⟨⟨_, rfl, hplace⟩, hnew⟩
  | write h =>
      obtain ⟨hfile, hchanged, -, -⟩ := changedAt_of_write h
      refine (Kept.of_changedAt hchanged hfile).mono ?_ fun _ hl => hl
      rintro l rfl
      exact ⟨_, List.mem_singleton_self _, rfl⟩
  | rename h =>
      obtain ⟨content, between, hat, hfile, -, herased, hput⟩ := exists_of_rename h
      -- the file leaves one place and takes the other one
      have hsource := ne_of_eq_of_ne hat (show some (Object.file content) ≠ some .directory by simp)
      have htarget := herased.ne_directory hfile
      refine ((Kept.of_changedAt herased hsource).mono ?_ fun _ hl => hl).trans
        ((Kept.of_changedAt hput htarget).mono ?_ fun _ hl => hl)
      · rintro l rfl
        exact ⟨_, List.mem_cons_self, rfl⟩
      · rintro l rfl
        exact ⟨_, List.mem_cons_of_mem _ (List.mem_singleton_self _), rfl⟩
  | remove h =>
      obtain ⟨hfile, hchanged⟩ := changedAt_of_remove h
      refine (Kept.of_changedAt hchanged hfile).mono ?_ fun _ hl => hl
      rintro l rfl
      exact ⟨_, List.mem_singleton_self _, rfl⟩

/-! ## The calls between two worlds -/

/-- Whether some events follow one another from one disk to another one. -/
def Follows (d : Disk) : List Event → Disk → Prop
  | [], d' => d' = d
  | event :: events, d' => event.call.Does d event.disk ∧ Follows event.disk events d'

/-- The disks behind two journals, one after the other. -/
theorem Follows.append {d d' d'' : Disk} {events events' : List Event} (h : Follows d events d')
    (h' : Follows d' events' d'') : Follows d (events ++ events') d'' := by
  induction events generalizing d with
  | nil =>
      obtain rfl : d' = d := h
      exact h'
  | cons event events ih => exact ⟨h.1, ih h.2⟩

/-- What all calls of a run leave alone is left alone after each of them. -/
theorem Kept.of_follows {files directories : Location → Prop} {d d₀ d' : Disk} {events : List Event}
    (h : Follows d events d') (hbefore : Kept files directories d₀ d)
    (hfiles : ∀ event ∈ events, ∀ p ∈ event.call.files, files (d₀.place p))
    (hdirectories : ∀ event ∈ events, ∀ p, event.call.directory? = some p →
      directories (d₀.place p)) :
    (∀ event ∈ events, Kept files directories d₀ event.disk) ∧ Kept files directories d₀ d' := by
  induction events generalizing d with
  | nil =>
      obtain rfl : d' = d := h
      exact ⟨fun _ hevent => absurd hevent List.not_mem_nil, hbefore⟩
  | cons event events ih =>
      obtain ⟨hdoes, hrest⟩ := h
      obtain ⟨hfile, hfiles⟩ := List.forall_mem_cons.mp hfiles
      obtain ⟨hdirectory, hdirectories⟩ := List.forall_mem_cons.mp hdirectories
      -- paths lead to the same places all the time
      have hplace (p : Path) : d.place p = d₀.place p := place_congr hbefore.workingDirectory p
      have hfirst : Kept files directories d₀ event.disk := by
        refine hbefore.trans (hdoes.kept.mono ?_ ?_)
        · rintro l ⟨p, hp, rfl⟩
          rw [hplace]
          exact hfile p hp
        · rintro l ⟨p, hp, rfl⟩
          rw [hplace]
          exact hdirectory p hp
      obtain ⟨hevents, hlast⟩ := ih hrest hfirst hfiles hdirectories
      exact ⟨List.forall_mem_cons.mpr ⟨hfirst, hevents⟩, hlast⟩

namespace World

/-- Whether a run leads from one world to another by some calls. -/
structure Makes (w : World) (calls : List Call) (w' : World) : Prop where
  faults : w'.faults = w.faults
  clock : w'.clock = w.clock
  journal : ∃ events, w'.journal = w.journal ++ events ∧ events.map Event.call = calls ∧
    Follows w.disk events w'.disk

namespace Makes

variable {w w' w'' : World} {calls calls' : List Call}

theorem refl (w : World) : Makes w [] w :=
  ⟨rfl, rfl, [], (List.append_nil _).symm, rfl, rfl⟩

theorem trans (h : Makes w calls w') (h' : Makes w' calls' w'') :
    Makes w (calls ++ calls') w'' := by
  obtain ⟨events, hjournal, hcalls, hfollows⟩ := h.journal
  obtain ⟨events', hjournal', hcalls', hfollows'⟩ := h'.journal
  refine ⟨h'.faults.trans h.faults, h'.clock.trans h.clock, events ++ events', ?_, ?_,
    hfollows.append hfollows'⟩
  · rw [hjournal', hjournal, List.append_assoc]
  · rw [List.map_append, hcalls, hcalls']

/-- What the calls leave alone is left alone after each of them. -/
theorem kept {files directories : Location → Prop} (h : Makes w calls w')
    (hfiles : ∀ call ∈ calls, ∀ p ∈ call.files, files (w.disk.place p))
    (hdirectories : ∀ call ∈ calls, ∀ p, call.directory? = some p → directories (w.disk.place p)) :
    ∃ events, w'.journal = w.journal ++ events ∧ events.map Event.call = calls ∧
      (∀ event ∈ events, Kept files directories w.disk event.disk) ∧
        Kept files directories w.disk w'.disk := by
  obtain ⟨events, hjournal, rfl, hfollows⟩ := h.journal
  refine ⟨events, hjournal, rfl, Kept.of_follows hfollows (Kept.refl _ _ _) ?_ ?_⟩
  · intro event hevent
    exact hfiles event.call (List.mem_map_of_mem hevent)
  · intro event hevent
    exact hdirectories event.call (List.mem_map_of_mem hevent)

end Makes

/-! ## Single calls -/

/-- A call is the only one of its run. -/
theorem makes_perform {α : Type} {call : Call} {operation : Disk → Except Error (α × Disk)}
    (hdoes : ∀ d a d', operation d = .ok (a, d') → call.Does d d') (w : World) :
    After (perform call operation) w fun _ w' => Makes w [call] w' := by
  have hstep : call.Does w.disk (w.diskAfter (w.outcome call operation)) := by
    unfold outcome
    cases w.faults w.journal.length call with
    | some e => exact .nothing call w.disk
    | none =>
        show call.Does w.disk (w.diskAfter (operation w.disk))
        cases hoperation : operation w.disk with
        | error e => exact .nothing call w.disk
        | ok r => exact hdoes _ _ _ hoperation
  exact ⟨rfl, rfl, _, rfl, rfl, hstep, rfl⟩

/-- A call that does to the disk what its operation says of it. -/
theorem makes_map {α β : Type} {call : Call} {operation : Disk → Except Error β}
    {result : Disk → β → α × Disk}
    (hdoes : ∀ d b, operation d = .ok b → call.Does d (result d b).2) (w : World) :
    After (perform call fun d => (operation d).map (result d)) w fun _ w' =>
      Makes w [call] w' := by
  refine makes_perform (fun d a d' h => ?_) w
  cases hoperation : operation d with
  | error e =>
      rw [hoperation] at h
      cases h
  | ok b =>
      rw [hoperation] at h
      have hresult := hdoes d b hoperation
      rwa [Except.ok.inj h] at hresult

/-- A call that changes the disk. -/
theorem makes_change {call : Call} {operation : Disk → Except Error Disk}
    (hdoes : ∀ d d', operation d = .ok d' → call.Does d d') (w : World) :
    After (perform call fun d => (operation d).map fun d => ((), d)) w fun _ w' =>
      Makes w [call] w' :=
  @makes_map Unit Disk call operation (fun _ d => ((), d)) hdoes w

/-- A call that only looks at the disk. -/
theorem makes_look {α : Type} {call : Call} {operation : Disk → Except Error α} (w : World) :
    After (perform call fun d => (operation d).map fun a => (a, d)) w fun _ w' =>
      Makes w [call] w' :=
  makes_map (fun d _ _ => .nothing call d) w

/-- A call that only looks and does not fail by itself gives what is on the disk. -/
theorem perform_look {α : Type} {call : Call} {operation : Disk → Except Error α} {w : World}
    (h : w.faults w.journal.length call = none) :
    perform call (fun d => (operation d).map fun a => (a, d)) w =
      (operation w.disk, { w with journal := w.journal ++ [⟨call, w.disk⟩] }) := by
  unfold perform outcome
  rw [h]
  dsimp only
  cases operation w.disk <;> rfl

theorem makes_isDirectory (p : Path) (w : World) :
    After (FileSystem.isDirectory p) w fun _ w' => Makes w [.isDirectory p] w' := by
  refine After.bind (@makes_look _ (.isDirectory p) (fun d => .ok (d.isDirectory p)) w)
    fun r w' h => ?_
  cases r with
  | ok b => exact h
  | error e => exact h

theorem makes_makeDirectory (p : Path) (w : World) :
    After (FileSystem.makeDirectory p) w fun _ w' => Makes w [.makeDirectory p] w' :=
  makes_change (fun _ _ h => .makeDirectory h) w

/-! ## The calls of making directories -/

/-- Whether a call belongs to making a directory and those above it. -/
def Ensures (p : Path) (call : Call) : Prop :=
  ∃ parts, parts <+: p.parts ∧
    (call = .makeDirectory ⟨p.absolute, parts, false⟩ ∨
      call = .isDirectory ⟨p.absolute, parts, false⟩)

/-- The calls that make the directories with the given parts are about what is above the last of
them. -/
theorem calls_ensureParts (absolute : Bool) (parts : List Part) (w : World) :
    After (ensureParts absolute parts) w fun _ w' =>
      ∃ calls, Makes w calls w' ∧ ∀ call ∈ calls,
        Ensures ⟨absolute, parts.reverse, false⟩ call := by
  induction parts generalizing w with
  | nil => exact After.pure ⟨[], Makes.refl w, fun _ hcall => absurd hcall List.not_mem_nil⟩
  | cons part above ih =>
      set path : Path := ⟨absolute, (part :: above).reverse, false⟩ with hpath
      have hmake : Ensures path (.makeDirectory path) := ⟨path.parts, List.prefix_rfl, Or.inl rfl⟩
      have hlook : Ensures path (.isDirectory path) := ⟨path.parts, List.prefix_rfl, Or.inr rfl⟩
      have habove (call : Call) (h : Ensures ⟨absolute, above.reverse, false⟩ call) :
          Ensures path call := by
        obtain ⟨parts, hparts, hcall⟩ := h
        refine ⟨parts, hparts.trans ?_, hcall⟩
        rw [hpath, List.reverse_cons]
        exact List.prefix_append _ _
      -- one more call of those that belong to the directory
      have hnext {v v' : World} {calls : List Call} {call : Call} (hv : Makes w calls v)
          (hcalls : ∀ call ∈ calls, Ensures path call) (hcall : Ensures path call)
          (hv' : Makes v [call] v') :
          ∃ calls, Makes w calls v' ∧ ∀ call ∈ calls, Ensures path call := by
        refine ⟨_, hv.trans hv', fun c hc => ?_⟩
        rcases List.mem_append.mp hc with hc | hc
        · exact hcalls c hc
        · rw [List.mem_singleton.mp hc]
          exact hcall
      have hcheck {v : World} {calls : List Call} (hv : Makes w calls v)
          (hcalls : ∀ call ∈ calls, Ensures path call) (e : Error) :
          After (do return if ← FileSystem.isDirectory path then Except.ok () else .error e) v
            fun _ v' => ∃ calls, Makes w calls v' ∧ ∀ call ∈ calls, Ensures path call :=
        After.bind (makes_isDirectory path v) fun _ _ h => hnext hv hcalls hlook h
      refine After.bind (makes_makeDirectory path w) fun r v hv => ?_
      have hfirst : ∀ call ∈ [Call.makeDirectory path], Ensures path call := fun call hcall => by
        rw [List.mem_singleton.mp hcall]
        exact hmake
      cases r with
      | ok _ => exact ⟨_, hv, hfirst⟩
      | error e =>
          cases e with
          | notFound =>
              refine After.bind (ih v) fun r' v' hv' => ?_
              obtain ⟨calls, hv', hcalls⟩ := hv'
              have hboth : ∀ call ∈ [Call.makeDirectory path] ++ calls, Ensures path call := by
                intro call hcall
                rcases List.mem_append.mp hcall with hcall | hcall
                · exact hfirst call hcall
                · exact habove call (hcalls call hcall)
              cases r' with
              | error e' => exact ⟨_, hv.trans hv', hboth⟩
              | ok _ =>
                  refine After.bind (makes_makeDirectory path v') fun r'' v'' hv'' => ?_
                  obtain ⟨calls', hv'', hcalls'⟩ := hnext (hv.trans hv') hboth hmake hv''
                  cases r'' with
                  | ok _ => exact ⟨_, hv'', hcalls'⟩
                  | error e'' => exact hcheck hv'' hcalls' e''
          | _ => exact hcheck hv hfirst _

/-- The calls that make a directory are about what is above it. -/
theorem calls_ensureDirectory (p : Path) (w : World) :
    After (ensureDirectory p) w fun _ w' =>
      ∃ calls, Makes w calls w' ∧ ∀ call ∈ calls, Ensures p call := by
  have h := calls_ensureParts p.absolute p.parts.reverse w
  rw [List.reverse_reverse] at h
  exact h

/-- A call is about what is above a path, however the path is written. -/
theorem Ensures.congr {p q : Path} {call : Call} (h : Ensures p call) (hparts : p.parts = q.parts)
    (habsolute : p.absolute = q.absolute) : Ensures q call := by
  obtain ⟨parts, hprefix, hcall⟩ := h
  exact ⟨parts, hparts ▸ hprefix, habsolute ▸ hcall⟩

/-- No file is replaced when a directory is made. -/
theorem Ensures.replaced?_eq_none {p : Path} {call : Call} (h : Ensures p call) :
    call.replaced? = none := by
  obtain ⟨parts, -, rfl | rfl⟩ := h <;> rfl

/-! ## The calls of replacing a file -/

/-- The calls by which a file is made beside its place, moved there, and removed when it cannot be
moved. -/
def moves (temporary target : Path) (content : String) : List Call :=
  [.write temporary content, .rename temporary target, .remove temporary]

/-- A file is written and moved; only after a failure there are other calls. -/
theorem calls_moveInto (temporary target : Path) (content : String) (w : World) :
    After (moveInto temporary target content) w fun r w' =>
      ∃ calls, Makes w calls w' ∧ calls <+: moves temporary target content ∧
        (r = .ok () → calls = (moves temporary target content).take 2) := by
  refine After.bind (makes_change (fun _ _ h => Call.Does.write h) w) fun r v hv => ?_
  cases r with
  | error e => exact ⟨_, hv, ⟨_, rfl⟩, fun h => by cases h⟩
  | ok _ =>
      refine After.bind (makes_change (fun _ _ h => Call.Does.rename h) v) fun r' v' hv' => ?_
      have hboth := hv.trans hv'
      cases r' with
      | ok _ => exact ⟨_, hboth, ⟨_, rfl⟩, fun _ => rfl⟩
      | error e =>
          refine After.bind (makes_change (fun _ _ h => Call.Does.remove h) v') fun r'' v'' hv'' =>
            ?_
          exact ⟨_, hboth.trans hv'', List.prefix_rfl, fun h => by cases h⟩

/-- Before a file is written and moved the directory that holds it is made. -/
theorem calls_replaceFile (target : Path) (content : String) (w : World) :
    After (replaceFile target content) w fun r w' =>
      ∃ calls calls' n, Makes w (calls ++ calls') w' ∧
      (∀ call ∈ calls, Ensures target.parent call) ∧
        calls' <+: moves (temporaryPath target n) target content ∧
          (r = .ok () → calls' = (moves (temporaryPath target n) target content).take 2) := by
  refine After.bind (calls_ensureDirectory target.parent w) fun r v hv => ?_
  obtain ⟨calls, hv, hcalls⟩ := hv
  cases r with
  | error e =>
      refine ⟨calls, [], 0, ?_, hcalls, List.nil_prefix, fun h => by cases h⟩
      rw [List.append_nil]
      exact hv
  | ok _ =>
      have htag : After FileSystem.freshTag v fun tag v' =>
          tag = toString v.journal.length ∧ v' = v := ⟨rfl, rfl⟩
      refine After.bind htag fun tag u hu => ?_
      rw [hu.1, hu.2]
      refine (calls_moveInto _ target content v).mono fun r' v' hv' => ?_
      obtain ⟨calls', hv', hprefix, hok⟩ := hv'
      exact ⟨calls, calls', v.journal.length, hv.trans hv', hcalls, hprefix, hok⟩

end World

end DagScaffold.Files
