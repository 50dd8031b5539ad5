import Mathlib
import DagScaffold.Proofs.Files.Disk

/-!
# Runs of programs on a disk

A program makes one call after the other, and the journal holds the disk after each of them. What is
said of a run is said of all these disks and of its result.

* `World.After` : what holds after a run;
* `World.Leads` : a run on whose disks something holds;
* `World.OnTheWay`, `World.UpFromMissing` : the places that a path leads over, and those at which
  nothing is although the path leads up from them;
* `after_ensureDirectory`, `after_replaceFile` : the runs of the two activities.
-/

namespace DagScaffold.Files

open Disk

namespace World

/-! ## What holds after a run -/

section

variable {α β : Type}

/-- Whether something holds of the result of a program that runs from a world, and of the world
then. -/
def After (x : StateM World α) (w : World) (post : α → World → Prop) : Prop :=
  post (x w).1 (x w).2

variable {x : StateM World α} {f : α → StateM World β} {w : World}

/-- A run goes on with what its first part gives. -/
theorem After.bind {mid : α → World → Prop} {post : β → World → Prop} (hx : After x w mid)
    (h : ∀ a w', mid a w' → After (f a) w' post) : After (x >>= f) w post :=
  h _ _ hx

theorem After.pure {post : α → World → Prop} {a : α} (h : post a w) :
    After (Pure.pure a) w post :=
  h

/-- What holds after a run may be weakened. -/
theorem After.mono {post post' : α → World → Prop} (h : After x w post)
    (hle : ∀ a w', post a w' → post' a w') : After x w post' :=
  hle _ _ h

end

/-! ## Disks of a run -/

/-- Whether a run leads from one world to another and something holds of the disk after each of its
calls, and of the disk at its end. -/
structure Leads (P : Disk → Prop) (w w' : World) : Prop where
  faults : w'.faults = w.faults
  journal : ∃ events, w'.journal = w.journal ++ events ∧ ∀ event ∈ events, P event.disk
  disk : P w'.disk

namespace Leads

variable {P Q : Disk → Prop} {w w' w'' : World}

/-- No call leads where the run stands. -/
theorem refl (h : P w.disk) : Leads P w w :=
  ⟨rfl, ⟨[], (List.append_nil _).symm, fun _ hevent => absurd hevent List.not_mem_nil⟩, h⟩

/-- Two runs, one after the other. -/
theorem trans (h : Leads P w w') (h' : Leads P w' w'') : Leads P w w'' := by
  obtain ⟨events, hjournal, hevents⟩ := h.journal
  obtain ⟨events', hjournal', hevents'⟩ := h'.journal
  refine ⟨h'.faults.trans h.faults, ⟨events ++ events', ?_, ?_⟩, h'.disk⟩
  · rw [hjournal', hjournal, List.append_assoc]
  · intro event hevent
    rcases List.mem_append.mp hevent with hevent | hevent
    · exact hevents event hevent
    · exact hevents' event hevent

/-- What holds of the disks of a run may be weakened. -/
theorem mono (h : Leads P w w') (hle : ∀ d, P d → Q d) : Leads Q w w' := by
  obtain ⟨events, hjournal, hevents⟩ := h.journal
  exact ⟨h.faults, ⟨events, hjournal, fun event hevent => hle _ (hevents event hevent)⟩,
    hle _ h.disk⟩

/-- The journal only grows. -/
theorem length_le (h : Leads P w w') : w.journal.length ≤ w'.journal.length := by
  obtain ⟨events, hjournal, -⟩ := h.journal
  rw [hjournal, List.length_append]
  exact Nat.le_add_right _ _

/-- Directories that are made one after the other. -/
theorem grown_trans {places : Location → Prop} (h : Leads (Grown places w.disk) w w')
    (h' : Leads (Grown places w'.disk) w' w'') : Leads (Grown places w.disk) w w'' :=
  h.trans (h'.mono fun _ hd => h.disk.trans hd)

end Leads

/-! ## Calls -/

/-- A call has one disk, on which its operation was carried out or nothing changed. -/
theorem after_perform {α : Type} (call : Call)
    (operation : Disk → Except Error (α × Disk)) (w : World) :
    After (perform call operation) w fun r w' =>
      Leads (· = w'.disk) w w' ∧
        match r with
        | .ok a => operation w.disk = .ok (a, w'.disk)
        | .error e => w'.disk = w.disk ∧
            (w.faults w.journal.length call = none → operation w.disk = .error e) := by
  have hleads : Leads (· = (perform call operation w).2.disk) w (perform call operation w).2 :=
    ⟨rfl, ⟨_, rfl, List.forall_mem_singleton.mpr rfl⟩, rfl⟩
  refine ⟨hleads, ?_⟩
  unfold perform outcome
  cases w.faults w.journal.length call with
  | some e => exact ⟨rfl, fun h => by cases h⟩
  | none =>
      cases operation w.disk with
      | error e => exact ⟨rfl, fun _ => rfl⟩
      | ok r => rfl

/-- A call that changes the disk. -/
theorem after_change (call : Call) (operation : Disk → Except Error Disk) (w : World) :
    After (perform call fun d => (operation d).map fun d => ((), d)) w fun r w' =>
      Leads (· = w'.disk) w w' ∧
        match r with
        | .ok () => operation w.disk = .ok w'.disk
        | .error e => w'.disk = w.disk ∧
            (w.faults w.journal.length call = none → operation w.disk = .error e) := by
  refine (after_perform call _ w).mono fun r w' h => ⟨h.1, ?_⟩
  obtain ⟨-, hresult⟩ := h
  cases hoperation : operation w.disk with
  | error e =>
      rw [hoperation] at hresult
      cases r with
      | ok a => cases hresult
      | error e' =>
          refine ⟨hresult.1, fun hnone => ?_⟩
          rw [Except.error.inj (hresult.2 hnone)]
  | ok d =>
      rw [hoperation] at hresult
      cases r with
      | ok a =>
          rw [(Prod.mk.inj (Except.ok.inj hresult)).2]
      | error e' => exact ⟨hresult.1, fun hnone => by cases hresult.2 hnone⟩

/-- A call that only looks at the disk. -/
theorem after_look {α : Type} (call : Call) (operation : Disk → Except Error α) (w : World) :
    After (perform call fun d => (operation d).map fun a => (a, d)) w fun _ w' =>
      Leads (· = w.disk) w w' := by
  refine (after_perform call _ w).mono fun r w' h => ?_
  obtain ⟨hleads, hresult⟩ := h
  have hsame : w'.disk = w.disk := by
    cases r with
    | error e => exact hresult.1
    | ok a =>
        cases hoperation : operation w.disk with
        | error e =>
            rw [hoperation] at hresult
            cases hresult
        | ok b =>
            rw [hoperation] at hresult
            exact (Prod.mk.inj (Except.ok.inj hresult)).2.symm
  rw [← hsame]
  exact hleads

/-- Asking whether there is something leaves the disk as it is. -/
theorem after_exists? (p : Path) (w : World) :
    After (FileSystem.exists? p) w fun _ w' => Leads (· = w.disk) w w' :=
  after_look (.exists? p) (fun d => d.exists? p) w

/-- Asking for a directory leaves the disk as it is. -/
theorem after_isDirectory (p : Path) (w : World) :
    After (FileSystem.isDirectory p) w fun _ w' => Leads (· = w.disk) w w' := by
  refine After.bind (after_look (.isDirectory p) (fun d => .ok (d.isDirectory p)) w) ?_
  intro r w' h
  cases r with
  | ok b => exact h
  | error e => exact h

/-- Making a directory adds one at most. -/
theorem after_makeDirectory (p : Path) (w : World) :
    After (FileSystem.makeDirectory p) w fun _ w' =>
      Leads (Grown (· = w.disk.place p) w.disk) w w' := by
  refine (after_change (.makeDirectory p) (fun d => d.makeDirectory p) w).mono fun r w' h => ?_
  obtain ⟨hleads, hresult⟩ := h
  have hgrown : Grown (· = w.disk.place p) w.disk w'.disk := by
    cases r with
    | ok _ => exact grown_of_makeDirectory hresult
    | error e =>
        rw [hresult.1]
        exact Grown.refl _ _
  exact hleads.mono fun d hd => hd ▸ hgrown

/-! ## Ways -/

/-- Whether a path leads over a place. -/
def OnTheWay (d : Disk) (p : Path) (l : Location) : Prop :=
  ∃ parts, parts <+: p.parts ∧ l = placeFrom (d.start p) parts

/-- Whether a path leads up from a place at which nothing is. Whoever makes the directories on the
way to such a path makes one there. -/
def UpFromMissing (d : Disk) (p : Path) (l : Location) : Prop :=
  d.at? l = none ∧ ∃ front, front ++ [.above] <+: p.parts ∧ placeFrom (d.start p) front = l

/-- A path without a part that leads up leads up from nowhere. -/
theorem not_upFromMissing_of_not_mem {p : Path} (h : Part.above ∉ p.parts) (d : Disk)
    (l : Location) :
    ¬UpFromMissing d p l := by
  rintro ⟨-, front, hfront, -⟩
  exact h (hfront.subset (List.mem_append_right _ (List.mem_singleton_self _)))

/-- A path that leads over a missing place and ends outside leads up from it. -/
theorem OnTheWay.upFromMissing {d : Disk} {p : Path} {l : Location} (h : OnTheWay d p l)
    (hmissing : d.at? l = none) (hout : ¬l <+: d.place p) : UpFromMissing d p l := by
  obtain ⟨parts, ⟨rest, hrest⟩, rfl⟩ := h
  rw [place, ← hrest, placeFrom_append] at hout
  obtain ⟨front, hfront, hplace⟩ := exists_above_of_placeFrom List.prefix_rfl hout
  refine ⟨hmissing, parts ++ front, ?_, ?_⟩
  · rw [← hrest, List.append_assoc, List.prefix_append_right_inj]
    exact hfront
  · rw [placeFrom_append, hplace]

/-! ## Making directories -/

/-- Making the directories with the given parts makes directories on the way only. -/
theorem after_ensureParts (absolute : Bool) (parts : List Part) (w : World) :
    After (ensureParts absolute parts) w fun _ w' =>
      Leads (Grown (OnTheWay w.disk { absolute, parts := parts.reverse }) w.disk) w w' := by
  induction parts generalizing w with
  | nil => exact After.pure (Leads.refl (Grown.refl _ _))
  | cons part above ih =>
      set path : Path := { absolute, parts := (part :: above).reverse } with hpath
      -- every single call keeps to the places on the way
      have hmake {v : World} (hv : v.disk.workingDirectory = w.disk.workingDirectory) :
          After (FileSystem.makeDirectory path) v fun _ v' =>
            Leads (Grown (OnTheWay w.disk path) v.disk) v v' := by
        refine (after_makeDirectory path v).mono fun _ v' h => h.mono fun d hd => hd.mono ?_
        rintro l rfl
        exact ⟨path.parts, List.prefix_rfl, by rw [place, start, start, hv]⟩
      have hlook (v : World) : After (FileSystem.isDirectory path) v fun _ v' =>
          Leads (Grown (OnTheWay w.disk path) v.disk) v v' := by
        refine (after_isDirectory path v).mono fun _ v' h => h.mono ?_
        rintro d rfl
        exact Grown.refl _ _
      have hrest {v : World} (hv : v.disk.workingDirectory = w.disk.workingDirectory) :
          After (ensureParts absolute above) v fun _ v' =>
            Leads (Grown (OnTheWay w.disk path) v.disk) v v' := by
        refine (ih v).mono fun _ v' h => h.mono fun d hd => hd.mono ?_
        rintro l ⟨parts, hparts, rfl⟩
        refine ⟨parts, hparts.trans ?_, by rw [start, start, hv]⟩
        rw [hpath, List.reverse_cons]
        exact List.prefix_append _ _
      have hcheck {v : World} (hv : Leads (Grown (OnTheWay w.disk path) w.disk) w v) (e : Error) :
          After (do return if ← FileSystem.isDirectory path then Except.ok () else .error e) v
            fun _ v' => Leads (Grown (OnTheWay w.disk path) w.disk) w v' :=
        After.bind (hlook v) fun _ _ h => hv.grown_trans h
      refine After.bind (hmake rfl) fun r v hv => ?_
      cases r with
      | ok _ => exact hv
      | error e =>
          cases e with
          | notFound =>
              refine After.bind (hrest hv.disk.workingDirectory) fun r' v' hv' => ?_
              have hboth := hv.grown_trans hv'
              cases r' with
              | error e' => exact hboth
              | ok _ =>
                  refine After.bind (hmake hboth.disk.workingDirectory) fun r'' v'' hv'' => ?_
                  have hall := hboth.grown_trans hv''
                  cases r'' with
                  | ok _ => exact hall
                  | error e'' => exact hcheck hall e''
          | _ => exact hcheck hv _

/-- Making a directory and those above it makes directories on the way to it and changes nothing
else. -/
theorem after_ensureDirectory (p : Path) (w : World) :
    After (ensureDirectory p) w fun _ w' => Leads (Grown (OnTheWay w.disk p) w.disk) w w' := by
  have h := after_ensureParts p.absolute p.parts.reverse w
  rw [List.reverse_reverse] at h
  exact h

/-! ## Replacing a file -/

/-- A disk on which a file is replaced: at its place is what was there or its new content, and any
other place but that of the temporary file is as it was. -/
structure Replacing (d : Disk) (temporary target : Location) (content : Content) (d' : Disk) :
    Prop where
  workingDirectory : d'.workingDirectory = d.workingDirectory
  objects : ∀ l, l ≠ temporary →
    d'.at? l = d.at? l ∨ l = target ∧ d'.at? l = some (.file content)

namespace Replacing

variable {d d' : Disk} {temporary target : Location} {content : Content}

/-- Nothing has been replaced yet. -/
theorem of_objects (hstart : d'.workingDirectory = d.workingDirectory)
    (hobjects : ∀ l, d'.at? l = d.at? l) : Replacing d temporary target content d' :=
  ⟨hstart, fun l _ => Or.inl (hobjects l)⟩

/-- Only the temporary file is there. -/
theorem of_changedAt_temporary {o : Option Object} (h : ChangedAt d d' temporary o) :
    Replacing d temporary target content d' := by
  refine ⟨h.workingDirectory, fun l hl => Or.inl ?_⟩
  rw [h.objects, if_neg hl]

/-- The file has its new content, and the temporary file is gone. -/
theorem of_changedAt_target (h : ChangedAt d d' target (some (.file content))) :
    Replacing d temporary target content d' := by
  refine ⟨h.workingDirectory, fun l _ => ?_⟩
  rw [h.objects]
  split_ifs with hl
  · exact Or.inr ⟨hl, rfl⟩
  · exact Or.inl rfl

end Replacing

/-- Removing the temporary file leaves the disk as it was before the file was written. It is left
when the removal fails by itself, for there is no other reason for a failure. -/
theorem after_remove_temporary {d : Disk} {temporary : Path} (target : Location)
    {content : Content} {w : World} (hwrite : d.write temporary content = .ok w.disk)
    (hfresh : ∀ old, d.at? (d.place temporary) ≠ some (.file old)) :
    After (FileSystem.remove temporary) w fun _ w' =>
      Leads (Replacing d (d.place temporary) target content) w w' ∧
        ((∀ n p, w.faults n (.remove p) = none) →
          w'.disk.workingDirectory = d.workingDirectory ∧ ∀ l, w'.disk.at? l = d.at? l) := by
  refine (after_change (.remove temporary) (fun d => d.remove temporary) w).mono ?_
  rintro r w' ⟨hleads, hremoved⟩
  obtain ⟨d', hd', hstart, hobjects⟩ := exists_remove_of_write hwrite hfresh
  cases r with
  | ok _ =>
      rw [← Except.ok.inj (hremoved.symm.trans hd')] at hstart hobjects
      refine ⟨hleads.mono ?_, fun _ => ⟨hstart, hobjects⟩⟩
      rintro _ rfl
      exact .of_objects hstart hobjects
  | error e =>
      refine ⟨hleads.mono ?_, fun hremove => ?_⟩
      · rintro _ rfl
        rw [hremoved.1]
        exact .of_changedAt_temporary (changedAt_of_write hwrite).2.1
      · have hfailed := hremoved.2 (hremove _ _)
        rw [hd'] at hfailed
        cases hfailed

/-- A file is moved into its place in one step. When that fails the temporary file is removed, so
the disk is as it was if the removal does not fail by itself. -/
theorem after_moveInto {temporary target : Path} (content : String) {w : World}
    (hapart : w.disk.place temporary ≠ w.disk.place target)
    (hfresh : ∀ old, w.disk.at? (w.disk.place temporary) ≠ some (.file old))
    (hslash : target.directoryOnly = false) :
    After (moveInto temporary target content) w fun r w' =>
      Leads (Replacing w.disk (w.disk.place temporary) (w.disk.place target) (.text content)) w w' ∧
        match r with
        | .ok () => w.disk.at? (w.disk.place target) ≠ some .directory ∧
            ChangedAt w.disk w'.disk (w.disk.place target) (some (.file (.text content))) ∧
              w'.disk.find target = .ok (w.disk.place target, .file (.text content))
        | .error _ => (∀ n p, w.faults n (.remove p) = none) →
            w'.disk.workingDirectory = w.disk.workingDirectory ∧
              ∀ l, w'.disk.at? l = w.disk.at? l := by
  refine After.bind (after_change (.write temporary content)
    (fun d => d.write temporary (.text content)) w) fun r v hv => ?_
  obtain ⟨hleads, hwrite⟩ := hv
  cases r with
  | error e =>
      have hstart : v.disk.workingDirectory = w.disk.workingDirectory := by rw [hwrite.1]
      have hobjects : ∀ l, v.disk.at? l = w.disk.at? l := fun l => by rw [hwrite.1]
      refine ⟨hleads.mono ?_, fun _ => ⟨hstart, hobjects⟩⟩
      rintro _ rfl
      exact .of_objects hstart hobjects
  | ok _ =>
      obtain ⟨-, hwritten, -, -⟩ := changedAt_of_write hwrite
      have hbeside : Replacing w.disk (w.disk.place temporary) (w.disk.place target)
          (.text content) v.disk := .of_changedAt_temporary hwritten
      have hfirst := hleads.mono fun d (hd : d = v.disk) => hd ▸ hbeside
      refine After.bind (after_change (.rename temporary target)
        (fun d => d.rename temporary target) v) fun r' v' hv' => ?_
      obtain ⟨hleads', hrename⟩ := hv'
      cases r' with
      | ok _ =>
          obtain ⟨hdirectory, hchanged, hfind⟩ :=
            changedAt_of_write_rename hwrite hrename hapart hfresh hslash
          refine ⟨hfirst.trans (hleads'.mono ?_), hdirectory, hchanged, hfind⟩
          rintro _ rfl
          exact .of_changedAt_target hchanged
      | error e =>
          have hsecond := hfirst.trans (hleads'.mono fun d (hd : d = v'.disk) =>
            hd ▸ hrename.1 ▸ hbeside)
          rw [← hrename.1] at hwrite
          refine After.bind (after_remove_temporary (w.disk.place target) hwrite hfresh)
            fun _ v'' hv'' => ?_
          obtain ⟨hleads'', hremoved⟩ := hv''
          refine ⟨hsecond.trans hleads'', fun hremove => hremoved ?_⟩
          rw [hsecond.faults]
          exact hremove

/-- The path of the temporary file that is to become a file, with the given number in its name. -/
def temporaryPath (target : Path) (n : Nat) : Path :=
  target.sibling (temporaryName target.name (toString n))

/-- A file is replaced in one step once the directories on the way to it are there. -/
theorem after_replaceFile {target : Path} (content : String) {w : World}
    (hapart : ∀ n, w.disk.place (temporaryPath target n) ≠ w.disk.place target)
    (hfresh : ∀ n, w.journal.length ≤ n →
      ∀ old, w.disk.at? (w.disk.place (temporaryPath target n)) ≠ some (.file old))
    (hslash : target.directoryOnly = false) :
    After (replaceFile target content) w fun r w' =>
      Leads (fun d => ∃ between n, w.journal.length ≤ n ∧
        Grown (OnTheWay w.disk target.parent) w.disk between ∧
          Replacing between (w.disk.place (temporaryPath target n)) (w.disk.place target)
            (.text content) d) w w' ∧
        match r with
        | .ok () => ∃ between, Grown (OnTheWay w.disk target.parent) w.disk between ∧
            between.at? (w.disk.place target) ≠ some .directory ∧
              ChangedAt between w'.disk (w.disk.place target) (some (.file (.text content))) ∧
                w'.disk.find target = .ok (w.disk.place target, .file (.text content))
        | .error _ => (∀ n p, w.faults n (.remove p) = none) →
            Grown (OnTheWay w.disk target.parent) w.disk w'.disk := by
  refine After.bind (after_ensureDirectory target.parent w) fun r v hv => ?_
  have hfirst := hv.mono fun d hd => (⟨d, w.journal.length, Nat.le_refl _, hd,
    .of_objects rfl fun _ => rfl⟩ : ∃ between n, w.journal.length ≤ n ∧
      Grown (OnTheWay w.disk target.parent) w.disk between ∧
        Replacing between (w.disk.place (temporaryPath target n)) (w.disk.place target)
          (.text content) d)
  cases r with
  | error e => exact ⟨hfirst, fun _ => hv.disk⟩
  | ok _ =>
      have hplace (p : Path) : v.disk.place p = w.disk.place p :=
        place_congr hv.disk.workingDirectory p
      set n := v.journal.length
      have hle : w.journal.length ≤ n := hv.length_le
      have hfresh' : ∀ old, v.disk.at? (v.disk.place (temporaryPath target n)) ≠
          some (.file old) := by
        intro old hold
        rw [hplace] at hold
        rcases hv.disk.objects (w.disk.place (temporaryPath target n)) with hsame | ⟨-, -, hnew⟩
        · exact hfresh n hle old (hsame.symm.trans hold)
        · rw [hold] at hnew
          cases hnew
      have hapart' : v.disk.place (temporaryPath target n) ≠ v.disk.place target := by
        rw [hplace, hplace]
        exact hapart n
      have htag : After FileSystem.freshTag v fun tag v' => tag = toString n ∧ v' = v :=
        ⟨rfl, rfl⟩
      refine After.bind htag fun tag u hu => ?_
      rw [hu.1, hu.2]
      refine (after_moveInto content hapart' hfresh' hslash).mono fun r' v' hv' => ?_
      rw [hplace, hplace] at hv'
      obtain ⟨hleads, hresult⟩ := hv'
      refine ⟨hfirst.trans (hleads.mono fun d hd => ⟨v.disk, n, hle, hv.disk, hd⟩), ?_⟩
      cases r' with
      | ok _ => exact ⟨v.disk, hv.disk, hresult⟩
      | error e =>
          intro hremove
          rw [← hv.faults] at hremove
          obtain ⟨hstart, hobjects⟩ := hresult hremove
          refine ⟨hstart.trans hv.disk.workingDirectory, fun l => ?_⟩
          rw [hobjects l]
          exact hv.disk.objects l

end World

end DagScaffold.Files
