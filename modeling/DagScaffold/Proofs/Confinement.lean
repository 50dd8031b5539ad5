import Mathlib
import DagScaffold.Proofs.Files.Calls
import DagScaffold.Proofs.Saving

/-!
# What saving a project leaves alone

A project is saved below the folder of its name only: every path of a file that is made, moved or
removed leads into that folder by names, and the directories that are made are there or on the way
to it. A name that could lead elsewhere is refused before the first call. So the files of other
projects stay as they are, and they are loaded as before unless the root of the workspace leads up
over a directory that is missing.

* `parse_projectDir` : the path of a folder;
* `WorksOn`, `calls_saveConfig` : the calls of a save;
* `Confined`, `Spares`, `Spares.loaded_eq` : what these calls leave alone;
* `confined_saveConfig`, `not_forall_loaded_eq` : saving as the other projects see it.
-/

namespace DagScaffold.Files

/-! ## Joined paths -/

theorem pieces_ne_nil (cs : List Char) : pieces cs ≠ [] := by
  cases cs with
  | nil => exact List.cons_ne_nil _ _
  | cons c cs =>
      unfold pieces
      split_ifs
      · exact List.cons_ne_nil _ _
      · split <;> exact List.cons_ne_nil _ _

/-- A text is cut at its first slash into what is before and the pieces behind. -/
theorem pieces_append (front back : List Char) :
    pieces (front ++ '/' :: back) = pieces front ++ pieces back := by
  induction front with
  | nil => rfl
  | cons c front ih =>
      obtain ⟨p, ps, hpieces⟩ := List.exists_cons_of_ne_nil (pieces_ne_nil front)
      rw [List.cons_append, pieces, pieces, ih, hpieces]
      split_ifs <;> rfl

/-- A text without a slash is one piece. -/
theorem pieces_of_not_mem {cs : List Char} (h : '/' ∉ cs) : pieces cs = [cs] := by
  induction cs with
  | nil => rfl
  | cons c cs ih =>
      obtain ⟨hc, hcs⟩ := not_or.mp (List.mem_cons.not.mp h)
      rw [pieces, if_neg (Ne.symm hc), ih hcs]

/-- Whether a text is the name of an entry in a directory. -/
structure IsEntryName (name : String) : Prop where
  ne_empty : name ≠ ""
  no_slash : '/' ∉ name.toList
  ne_dot : name ≠ "."
  ne_dots : name ≠ ".."

/-- The name of an entry is a part of a path by itself. -/
theorem IsEntryName.part {name : String} (h : IsEntryName name) :
    Part.of? name.toList = some (.entry name) := by
  have hdot : name.toList ≠ ['.'] := fun heq => h.ne_dot (String.toList_inj.mp heq)
  have hdots : name.toList ≠ ['.', '.'] := fun heq => h.ne_dots (String.toList_inj.mp heq)
  have hempty : name.toList ≠ [] := mt String.toList_eq_nil_iff.mp h.ne_empty
  rw [Part.of?, if_neg (not_or.mpr ⟨hempty, hdot⟩), if_neg hdots, String.ofList_toList]

/-- A path is absolute or not whatever is put behind it. -/
theorem isAbsolute_append {base : String} (h : base ≠ "") (s : String) :
    isAbsolute (base ++ s) = isAbsolute base := by
  obtain ⟨c, cs, hbase⟩ := List.exists_cons_of_ne_nil (mt String.toList_eq_nil_iff.mp h)
  rw [isAbsolute, isAbsolute, String.toList_append, hbase]
  rfl

/-- A joined path has the pieces of both parts, up to an empty one. -/
theorem exists_pieces_join {base name : String} (h : IsEntryName name) :
    ∃ front, pieces (join base name).toList = front ++ [name.toList] ∧
      front.filterMap Part.of? = (pieces base.toList).filterMap Part.of? ∧
        isAbsolute (join base name) = isAbsolute base := by
  have hname : isAbsolute name = false :=
    decide_eq_false fun hhead => h.no_slash (List.mem_of_mem_head? hhead)
  have hpieces := pieces_of_not_mem h.no_slash
  unfold join
  rw [hname, Bool.false_or]
  split_ifs with hempty hslash
  · obtain rfl : base = "" := of_decide_eq_true hempty
    exact ⟨[], hpieces, rfl, hname⟩
  · -- the slash at the end of the first part is the one between them
    have hne : base ≠ "" := fun heq => hempty (decide_eq_true heq)
    obtain ⟨cs, hcs⟩ := List.getLast?_eq_some_iff.mp hslash
    refine ⟨pieces cs, ?_, ?_, isAbsolute_append hne name⟩
    · rw [String.toList_append, hcs, List.append_assoc]
      show pieces (cs ++ '/' :: name.toList) = _
      rw [pieces_append, hpieces]
    · rw [hcs, pieces_append, List.filterMap_append]
      show _ = _ ++ ([] : List Part)
      rw [List.append_nil]
  · have hne : base ≠ "" := fun heq => hempty (decide_eq_true heq)
    refine ⟨pieces base.toList, ?_, rfl, ?_⟩
    · rw [String.toList_append, String.toList_append, List.append_assoc]
      show pieces (base.toList ++ '/' :: name.toList) = _
      rw [pieces_append, hpieces]
    · rw [String.append_assoc, isAbsolute_append hne]

/-- A path that is joined with a name leads to the entry of that name. -/
theorem parse_join {base name : String} (h : IsEntryName name) :
    Path.parse (join base name) = (Path.parse base).child name := by
  obtain ⟨front, hpieces, hparts, habsolute⟩ := @exists_pieces_join base name h
  have hempty : name.toList ≠ [] := mt String.toList_eq_nil_iff.mp h.ne_empty
  have hdot : name.toList ≠ ['.'] := fun heq => h.ne_dot (String.toList_inj.mp heq)
  simp [Path.parse, Path.child, hpieces, hparts, habsolute, h.part, hempty, hdot]

end DagScaffold.Files

namespace DagScaffold.Store

open DagScaffold.Files

open Disk World

/-! ## Names that are used -/

/-- Whether a name is a single component of a path that is made of letters and digits of ASCII,
underscores and hyphens. -/
structure Usable (name : String) : Prop extends IsEntryName name where
  chars : ∀ c ∈ name.toList, c.isAlphanum = true ∨ c = '_' ∨ c = '-'

/-- The names without a problem are those that can be used. -/
theorem nameProblem?_eq_none_iff_usable (name : String) :
    Project.nameProblem? name = none ↔ Usable name := by
  have hchar (c : Char) :
      Project.isNameChar c = true ↔ c.isAlphanum = true ∨ c = '_' ∨ c = '-' := by
    simp only [Project.isNameChar, Bool.or_eq_true, decide_eq_true_eq, or_assoc]
  rw [Project.nameProblem?_eq_none_iff]
  constructor
  · rintro ⟨hempty, hchars⟩
    refine ⟨⟨hempty, ?_, ?_, ?_⟩, fun c hc => (hchar c).mp (hchars c hc)⟩
    · intro hslash
      exact absurd (hchars '/' hslash) (by decide)
    · rintro rfl
      exact absurd (hchars '.' (by decide)) (by decide)
    · rintro rfl
      exact absurd (hchars '.' (by decide)) (by decide)
  · intro h
    exact ⟨h.ne_empty, fun c hc => (hchar c).mpr (h.chars c hc)⟩

/-- The path of the root of the workspace. -/
def workspace (settings : Settings) : Path :=
  Path.parse settings.workspaceRoot

/-- The path of the folder of a project. -/
def projectFolder (settings : Settings) (name : String) : Path :=
  (workspace settings).child name

/-- The written folder of a project is the entry of its name in the workspace. -/
theorem parse_projectDir (settings : Settings) {name : String} (h : IsEntryName name) :
    Path.parse (settings.projectDir name) = projectFolder settings name :=
  parse_join h

/-- The folder of a project with a usable name is the entry of that name in the workspace. -/
theorem root_eq_projectFolder (settings : Settings) {config : Config}
    (h : IsEntryName config.name) :
    root settings config = projectFolder settings config.name :=
  parse_projectDir settings h

/-! ## The calls of a save -/

/-- Whether a call works on some files below a path: it looks at the path, belongs to a directory of
the project, or to the making of one of the files. -/
inductive WorksOn (root : Path) (files : List ProjectFile) : Call → Prop
  | look : WorksOn root files (.exists? root)
  | ensure {directory : List String} (hdirectory : directory ∈ directories) {call : Call}
    (hcall : Ensures (root.descend directory) call) : WorksOn root files call
  | move {f : ProjectFile} (hf : f ∈ files) {n : Nat} {call : Call}
    (hcall : call ∈ moves (temporaryPath (filePath root f) n) (filePath root f) f.content) :
    WorksOn root files call

/-- The directory that holds a file is one of the project. -/
theorem parent_filePath {root : Path} {f : ProjectFile} (hf : f.path ≠ []) :
    (filePath root f).parent.parts = (root.descend f.path.dropLast).parts ∧
      (filePath root f).parent.absolute = (root.descend f.path.dropLast).absolute := by
  obtain ⟨hfile, habsolute⟩ := descend_parts root f.path
  obtain ⟨hfolder, habsolute'⟩ := descend_parts root f.path.dropLast
  have hnamed : f.path.map Part.entry ≠ [] := fun hnil => hf (List.map_eq_nil_iff.mp hnil)
  constructor
  · rw [hfolder, Path.parent, filePath, hfile, List.dropLast_append_of_ne_nil hnamed,
      List.map_dropLast]
  · rw [habsolute', ← habsolute]
    rfl

/-- The calls between two worlds, each of which works on some files, and whose replaced files are
known when the run that makes them gives a result. -/
def Works (root : Path) (files : List ProjectFile) (w : World) (replaced : List Path) {α : Type}
    (r : Except Failure α) (w' : World) : Prop :=
  ∃ calls, Makes w calls w' ∧ (∀ call ∈ calls, WorksOn root files call) ∧
    (r.isOk = true → calls.filterMap Call.replaced? = replaced)

section Calls

variable {root : Path} {files : List ProjectFile} {α β : Type} {replaced replaced' : List Path}
  {w w' w'' : World}

/-- The calls of two runs, one after the other. -/
theorem Works.trans {a : α} {r : Except Failure β} (h : Works root files w replaced (.ok a) w')
    (h' : Works root files w' replaced' r w'') :
    Works root files w (replaced ++ replaced') r w'' := by
  obtain ⟨calls, hmakes, hworks, hreplaced⟩ := h
  obtain ⟨calls', hmakes', hworks', hreplaced'⟩ := h'
  refine ⟨calls ++ calls', hmakes.trans hmakes', fun call hcall => ?_, fun hok => ?_⟩
  · rcases List.mem_append.mp hcall with hcall | hcall
    · exact hworks call hcall
    · exact hworks' call hcall
  · rw [List.filterMap_append, hreplaced rfl, hreplaced' hok]

/-- A run that fails has replaced some files at most. -/
theorem Works.failed {e : Failure}
    (h : Works root files w replaced (.error e : Except Failure α) w') (replaced' : List Path) :
    Works root files w replaced' (.error e : Except Failure β) w' := by
  obtain ⟨calls, hmakes, hworks, -⟩ := h
  exact ⟨calls, hmakes, hworks, fun hok => by cases hok⟩

/-- Making a directory of a project makes calls of directories only. -/
theorem works_ensureDirectory {directory : List String} (hdirectory : directory ∈ directories)
    (w : World) :
    After (lift (ensureDirectory (root.descend directory)) :
        ExceptT Failure (StateM World) Unit).run w fun r w' => Works root files w [] r w' := by
  refine (After.lift (calls_ensureDirectory _ w)).mono ?_
  rintro _ w' ⟨r, rfl, calls, hmakes, hensures⟩
  refine ⟨calls, hmakes, fun call hcall => .ensure hdirectory (hensures call hcall), fun _ => ?_⟩
  exact List.filterMap_eq_nil_iff.mpr fun call hcall => (hensures call hcall).replaced?_eq_none

/-- Writing a file of a project makes the calls of its replacement. -/
theorem works_writeFile {f : ProjectFile} (hf : f ∈ files) (hnamed : f.path ≠ [])
    (hdirectory : f.path.dropLast ∈ directories) (w : World) :
    After (writeFile root f : ExceptT Failure (StateM World) Unit).run w fun r w' =>
      Works root files w [filePath root f] r w' := by
  refine (After.lift (calls_replaceFile (filePath root f) f.content w)).mono ?_
  rintro _ w' ⟨r, rfl, calls, calls', n, hmakes, hensures, hmoves, hok⟩
  obtain ⟨hparts, habsolute⟩ := @parent_filePath root f hnamed
  refine ⟨calls ++ calls', hmakes, fun call hcall => ?_, fun hr => ?_⟩
  · rcases List.mem_append.mp hcall with hcall | hcall
    · exact .ensure hdirectory ((hensures call hcall).congr hparts habsolute)
    · exact .move hf (hmoves.subset hcall)
  · have hnone : calls.filterMap Call.replaced? = [] :=
      List.filterMap_eq_nil_iff.mpr fun call hcall => (hensures call hcall).replaced?_eq_none
    cases r with
    | error e => cases hr
    | ok _ =>
        rw [List.filterMap_append, hnone, hok rfl]
        rfl

/-- A run over a list replaces the files of its items in their order. -/
theorem works_forM {ι : Type} {items : List ι} {step : ι → ExceptT Failure (StateM World) Unit}
    {replacedBy : ι → List Path}
    (hstep : ∀ i ∈ items, ∀ v, After (step i).run v fun r v' =>
      Works root files v (replacedBy i) r v') (w : World) :
    After (items.forM step : ExceptT Failure (StateM World) Unit).run w fun r w' =>
      Works root files w (items.flatMap replacedBy) r w' := by
  induction items generalizing w with
  | nil => exact After.pure ⟨[], Makes.refl w, fun _ hcall => absurd hcall List.not_mem_nil,
    fun _ => rfl⟩
  | cons i items ih =>
      obtain ⟨hi, hitems⟩ := List.forall_mem_cons.mp hstep
      refine After.bindExcept (hi w) fun r v hv => ?_
      cases r with
      | error e => exact hv.failed _
      | ok _ =>
          rw [List.flatMap_cons]
          exact (ih hitems v).mono fun _ _ hv' => hv.trans hv'

end Calls

/-- The calls of a save work on the files of the project, and a save that succeeds replaces them in
the order of their list. -/
theorem calls_saveConfig (settings : Settings) {config : Config}
    (husable : Project.nameProblem? config.name = none) (w : World) :
    After (saveConfig settings config : ExceptT Failure (StateM World) Status).run w fun r w' =>
      Works (root settings config) (projectFiles settings config) w
        ((projectFiles settings config).map (filePath (root settings config))) r w' := by
  set files := projectFiles settings config
  have hfolder : After (ExceptT.mk (pure (folder settings config.name)) :
      ExceptT Failure (StateM World) String).run w fun r v =>
        r = .ok (settings.projectDir config.name) ∧ v = w :=
    After.pure ⟨folder_of_usable settings husable, rfl⟩
  refine After.bindExcept hfolder ?_
  rintro _ v ⟨rfl, hv⟩
  rw [hv]
  refine After.bindExcept (After.lift (makes_look w)) ?_
  rintro _ v ⟨r, rfl, hv⟩
  have hfirst : Works (root settings config) files w [] (r.mapError Failure.files) v :=
    ⟨_, hv, fun call hcall => List.mem_singleton.mp hcall ▸ .look, fun _ => rfl⟩
  cases r with
  | error e => exact hfirst.failed _
  | ok existed =>
      have hsubdirectories : ∀ name ∈ subdirectories, [name] ∈ directories := by decide
      have hensure := @works_forM (root settings config) files _ subdirectories _ (fun _ => [])
        (fun name hname => works_ensureDirectory (hsubdirectories name hname)) v
      refine After.bindExcept hensure fun r' v' hv' => ?_
      cases r' with
      | error e => exact (hfirst.trans hv').failed _
      | ok _ =>
          have hwrite := @works_forM (root settings config) files _ files _
            (fun f => [filePath _ f])
              (fun f hf => works_writeFile hf ((apart_projectFiles settings config).named f hf)
              (dropLast_mem_directories hf)) v'
          refine After.bindExcept hwrite fun r'' v'' hv'' => ?_
          have hall := (hfirst.trans hv').trans hv''
          cases r'' with
          | error e => exact hall.failed _
          | ok _ =>
              obtain ⟨calls, hmakes, hworks, hreplaced⟩ := hall
              refine ⟨calls, hmakes, hworks, fun _ => ?_⟩
              rw [hreplaced rfl, List.map_eq_flatMap]
              simp

/-! ## Inside the folder of a project -/

/-- Whether a path leads to the folder of a project, or by names into it. -/
def Inside (settings : Settings) (name : String) (p : Path) : Prop :=
  p.absolute = (workspace settings).absolute ∧
    ∃ names : List String, p.parts = (projectFolder settings name).parts ++ names.map .entry

/-- Whether a path leads to a directory on the way to the folder of a project. -/
def Above (settings : Settings) (name : String) (p : Path) : Prop :=
  p.absolute = (workspace settings).absolute ∧ p.parts <+: (projectFolder settings name).parts

/-- Whether a call touches nothing but the folder of a project: the paths of its files lead into the
folder, and the directory that it makes is there or on the way to it. -/
structure Confined (settings : Settings) (name : String) (call : Call) : Prop where
  files : ∀ p ∈ call.files, Inside settings name p
  directory : ∀ p, call.directory? = some p → Inside settings name p ∨ Above settings name p

/-- What is reached by names from the folder of a project is inside. -/
theorem inside_descend (settings : Settings) (name : String) (path : List String) :
    Inside settings name ((projectFolder settings name).descend path) := by
  obtain ⟨hparts, habsolute⟩ := descend_parts (projectFolder settings name) path
  exact ⟨habsolute, path, hparts⟩

/-- A temporary file has the path of its file but for the last name. -/
theorem temporaryPath_parts (p : Path) {path : List String} (h : path ≠ []) (n : Nat) :
    (temporaryPath (p.descend path) n).parts = p.parts ++ (temporaryNames path n).map .entry ∧
      (temporaryPath (p.descend path) n).absolute = p.absolute := by
  obtain ⟨front, last, rfl⟩ := (List.eq_nil_or_concat' path).resolve_left h
  obtain ⟨hparts, habsolute⟩ := descend_parts p (front ++ [last])
  have hname : (p.descend (front ++ [last])).name = last := by
    rw [Path.name, hparts, List.map_append, ← List.append_assoc]
    simp
  constructor
  · rw [temporaryPath, hname]
    simp [Path.sibling, Path.parent, Path.child, hparts, temporaryNames]
  · exact habsolute

/-- The calls of a save touch nothing but the folder of the project and the way to it. -/
theorem WorksOn.confined {settings : Settings} {name : String} {files : List ProjectFile}
    {call : Call} (hnamed : ∀ f ∈ files, f.path ≠ [])
    (h : WorksOn (projectFolder settings name) files call) :
    Confined settings name call := by
  cases h with
  | look => exact ⟨fun p hp => absurd hp List.not_mem_nil, fun p hp => by cases hp⟩
  | @ensure directory _ _ hcall =>
      obtain ⟨parts, hparts, hcall⟩ := hcall
      obtain ⟨hfolder, habsolute⟩ := descend_parts (projectFolder settings name) directory
      have hplace : Inside settings name
          ⟨((projectFolder settings name).descend directory).absolute,
          parts, false⟩ ∨ Above settings name
            ⟨((projectFolder settings name).descend directory).absolute, parts, false⟩ := by
        rw [hfolder] at hparts
        -- a front of the way ends above the folder or in it
        rcases List.prefix_or_prefix_of_prefix hparts (List.prefix_append _ _) with habove |
          ⟨rest, rfl⟩
        · exact Or.inr ⟨habsolute, habove⟩
        · rw [List.prefix_append_right_inj, List.prefix_map_iff] at hparts
          obtain ⟨front, -, rfl⟩ := hparts
          exact Or.inl ⟨habsolute, front, rfl⟩
      rcases hcall with rfl | rfl
      · refine ⟨fun p hp => absurd hp List.not_mem_nil, fun p hp => ?_⟩
        obtain rfl := Option.some.inj hp
        exact hplace
      · exact ⟨fun p hp => absurd hp List.not_mem_nil, fun p hp => by cases hp⟩
  | @move f hf n _ hcall =>
      obtain ⟨hparts, habsolute⟩ :=
        temporaryPath_parts (projectFolder settings name) (hnamed f hf) n
      have htemporary : Inside settings name
          (temporaryPath (filePath (projectFolder settings name) f) n) :=
        ⟨habsolute, _, hparts⟩
      have hfile : Inside settings name (filePath (projectFolder settings name) f) :=
        inside_descend settings name f.path
      simp only [moves, List.mem_cons, List.not_mem_nil, or_false] at hcall
      rcases hcall with rfl | rfl | rfl
      · refine ⟨fun p hp => ?_, fun p hp => by cases hp⟩
        rw [List.mem_singleton.mp hp]
        exact htemporary
      · refine ⟨fun p hp => ?_, fun p hp => by cases hp⟩
        rcases List.mem_cons.mp hp with rfl | hp
        · exact htemporary
        · rw [List.mem_singleton.mp hp]
          exact hfile
      · refine ⟨fun p hp => ?_, fun p hp => by cases hp⟩
        rw [List.mem_singleton.mp hp]
        exact htemporary

/-! ## What a save leaves alone -/

/-- A disk that differs from another one in the folder of a project, and otherwise by new
directories on the way to the folder only. -/
def Spares (settings : Settings) (name : String) (d d' : Disk) : Prop :=
  Kept (fun l => d.place (projectFolder settings name) <+: l)
    (OnTheWay d (projectFolder settings name)) d d'

section Spares

variable {settings : Settings} {name other : String} {d d' : Disk} {p : Path}

/-- A path inside the folder of a project leads into the folder. -/
theorem prefix_place_of_inside (h : Inside settings name p) :
    d.place (projectFolder settings name) <+: d.place p := by
  obtain ⟨habsolute, names, hparts⟩ := h
  have hstart : d.start p = d.start (projectFolder settings name) := by
    rw [start, start, habsolute]
    rfl
  rw [place, place, hstart, hparts, placeFrom_append, placeFrom_entries]
  exact List.prefix_append _ _

/-- A path above the folder of a project leads to a place on the way to it. -/
theorem onTheWay_place_of_above (h : Above settings name p) :
    OnTheWay d (projectFolder settings name) (d.place p) := by
  obtain ⟨habsolute, hparts⟩ := h
  refine ⟨p.parts, hparts, ?_⟩
  rw [place, start, start, habsolute]
  rfl

/-- Confined calls spare everything else, each of them and all together. -/
theorem spares_of_confined {w w' : World} {calls : List Call} (h : Makes w calls w')
    (hcalls : ∀ call ∈ calls, Confined settings name call) :
    ∃ events, w'.journal = w.journal ++ events ∧ events.map Event.call = calls ∧
      (∀ event ∈ events, Spares settings name w.disk event.disk) ∧
        Spares settings name w.disk w'.disk := by
  -- a directory that is made inside the folder counts as a change in the folder
  obtain ⟨events, hjournal, hevents, hkept, hlast⟩ :=
    @Makes.kept w w' calls (fun l => w.disk.place (projectFolder settings name) <+: l)
      (fun l => w.disk.place (projectFolder settings name) <+: l ∨
        OnTheWay w.disk (projectFolder settings name) l) h
      (fun call hcall p hp => prefix_place_of_inside ((hcalls call hcall).files p hp))
      (fun call hcall p hp => ((hcalls call hcall).directory p hp).imp prefix_place_of_inside
        onTheWay_place_of_above)
  have hspares (d : Disk) (hd : Kept (fun l => w.disk.place (projectFolder settings name) <+: l)
      (fun l => w.disk.place (projectFolder settings name) <+: l ∨
        OnTheWay w.disk (projectFolder settings name) l) w.disk d) :
        Spares settings name w.disk d := by
    refine ⟨hd.workingDirectory, hd.keepsDirectories, fun l hl => ?_⟩
    exact (hd.objects l hl).imp_right fun ⟨hplace, hnew⟩ => ⟨hplace.resolve_left hl, hnew⟩
  exact ⟨events, hjournal, hevents, fun event hevent => hspares _ (hkept event hevent),
    hspares _ hlast⟩

/-- The folder of a project is in the workspace. -/
theorem place_projectFolder (d : Disk) (settings : Settings) (name : String) :
    d.place (projectFolder settings name) = d.place (workspace settings) ++ [name] := by
  rw [place, place, projectFolder, Path.child, placeFrom_append]
  rfl

/-- The folders of two projects are apart. -/
theorem not_prefix_of_ne (hne : other ≠ name) {l : Location}
    (hl : d.place (projectFolder settings other) <+: l) :
    ¬d.place (projectFolder settings name) <+: l := by
  intro h
  rw [place_projectFolder] at hl h
  have hsame := List.prefix_of_prefix_length_le h hl (by simp)
  rw [List.prefix_append_right_inj, List.cons_prefix_cons] at hsame
  exact hne hsame.1.symm

/-- No file of another project changes. -/
theorem Spares.content?_eq (h : Spares settings name d d') (hne : other ≠ name) {l : Location}
    (hl : d.place (projectFolder settings other) <+: l) : d'.content? l = d.content? l := by
  rcases h.objects l (not_prefix_of_ne hne hl) with hsame | ⟨-, hnew⟩
  · exact content?_congr hsame
  · exact content?_eq_of_grown (Or.inr hnew)

end Spares

/-! ## Loading -/

/-- The path of the manifest of a project. -/
def manifestPath (settings : Settings) (name : String) : Path :=
  (projectFolder settings name).child Manifest.fileName

/-- What loading a project gives when the reading of its manifest gives a text or fails. -/
def recovered (settings : Settings) (name : String) :
    Except Files.Error String → Except Failure Payload
  | .ok text =>
    match Manifest.read text with
    | .ok manifest => .ok (manifest.toPayload name)
    | .error fault => .error (.manifest fault)
  | .error .notFound => .error (.notFound name (settings.projectDir name))
  | .error e => .error (.files e)

/-- A load reads the manifest and does nothing else. -/
theorem run_load (settings : Settings) {name : String} (husable : Usable name) (w : World) :
    (load settings name : ExceptT Failure (StateM World) Payload).run w =
      let read := (FileSystem.read (manifestPath settings name) : StateM World _) w
      (recovered settings name read.1, read.2) := by
  have hfolder := folder_of_usable settings ((nameProblem?_eq_none_iff_usable name).mpr husable)
  have hread : (FileSystem.read ((Path.parse (settings.projectDir name)).child Manifest.fileName) :
      StateM World _) = FileSystem.read (manifestPath settings name) := by
    rw [parse_projectDir settings husable.toIsEntryName]
    rfl
  unfold load readManifest
  rw [hfolder]
  simp only [bind, ExceptT.bind, ExceptT.mk, ExceptT.run, ExceptT.bindCont, pure, StateT.bind,
    StateT.pure, ExceptT.lift, Functor.map, StateT.map, ExceptT.pure, hread]
  cases (FileSystem.read (manifestPath settings name) : StateM World (Except Error String)) w with
  | mk r w' =>
      cases r with
      | error e => cases e <;> rfl
      | ok text =>
          cases hmanifest : Manifest.read text with
          | ok manifest => simp only [recovered, StateT.pure, pure, hmanifest]
          | error fault =>
              simp only [recovered, StateT.pure, pure, hmanifest]
              rfl

/-- The result of loading a project from a disk. -/
def loaded (settings : Settings) (name : String) (d : Disk) : Except Failure Payload :=
  ((load settings name : ExceptT Failure (StateM World) Payload).run { disk := d }).1

/-- Loading a project reads its manifest and nothing else. -/
theorem loaded_eq_recovered (settings : Settings) {name : String} (husable : Usable name)
    (d : Disk) :
    loaded settings name d = recovered settings name (d.read (manifestPath settings name)) := by
  have hread : (FileSystem.read (manifestPath settings name) : StateM World _) { disk := d } =
      (d.read (manifestPath settings name), _) := perform_look rfl
  rw [loaded, run_load settings husable, hread]

/-- A name that cannot be used is refused before the first call. -/
theorem refused_of_not_usable {name : String} (h : ¬Usable name) :
    ∃ problem, Project.nameProblem? name = some problem ∧
      (∀ (settings : Settings) (config : Config) (w : World), config.name = name →
        (saveConfig settings config : ExceptT Failure (StateM World) Status).run w =
          (.error (.invalid [.projectName problem]), w)) ∧
      ∀ (settings : Settings) (w : World),
        (load settings name : ExceptT Failure (StateM World) Payload).run w =
          (.error (.invalid [.projectName problem]), w) := by
  have hsome : Project.nameProblem? name ≠ none := mt (nameProblem?_eq_none_iff_usable name).mp h
  obtain ⟨problem, hproblem⟩ := Option.ne_none_iff_exists'.mp hsome
  have hfolder (settings : Settings) :
      folder settings name = .error (.invalid [.projectName problem]) := by
    rw [folder, hproblem]
  refine ⟨problem, hproblem, ?_, fun settings w => ?_⟩
  · rintro settings config w rfl
    rw [saveConfig, hfolder]
    rfl
  · rw [load, hfolder]
    rfl

/-! ## Disks that are trees -/

/-- Whether everything on a disk is in a directory. -/
def IsTree (d : Disk) : Prop :=
  ∀ l name, d.at? (l ++ [name]) ≠ none → d.at? l = some .directory

/-- A disk is a tree when each of its entries is in a directory. -/
theorem isTree_of_objects {d : Disk}
    (h : ∀ entry ∈ d.objects, d.at? entry.1.dropLast = some .directory) : IsTree d := by
  intro l name hne
  rw [at?, if_neg (List.append_ne_nil_of_right_ne_nil l (List.cons_ne_nil name []))] at hne
  obtain ⟨o, hlookup⟩ := Option.ne_none_iff_exists'.mp hne
  obtain ⟨before, after, hobjects, -⟩ := List.lookup_eq_some_iff.mp hlookup
  have hparent := h (l ++ [name], o) (by simp [hobjects])
  rwa [List.dropLast_concat] at hparent

/-- The check of a place looks at nothing else. -/
theorem requireDirectory_congr {d d' : Disk} {l : Location} (h : d'.at? l = d.at? l) :
    d'.requireDirectory l = d.requireDirectory l := by
  rw [requireDirectory, requireDirectory, h]

theorem walk_entry_cons (d : Disk) (l : Location) (name : String) (parts : List Part) :
    d.walk l (.entry name :: parts) =
      (d.requireDirectory l).bind fun _ => d.walk (l ++ [name]) parts := rfl

/-- Names lead to the same place, or fail for the same reason, when on the way to the last directory
only directories are new. -/
theorem walk_entries_congr {d d' : Disk} (htree : IsTree d) {l : Location} {names : List String}
    (hgrown : ∀ front, front <+: names →
      d'.at? (l ++ front) = d.at? (l ++ front) ∨
        d.at? (l ++ front) = none ∧ d'.at? (l ++ front) = some .directory)
    (hlast : ∀ front last, names = front ++ [last] → d'.at? (l ++ front) = d.at? (l ++ front)) :
    d'.walk l (names.map .entry) = d.walk l (names.map .entry) := by
  induction names generalizing l with
  | nil => rfl
  | cons a names ih =>
      rw [List.map_cons, walk_entry_cons, walk_entry_cons]
      cases names with
      | nil =>
          have hsame := hlast [] a rfl
          rw [List.append_nil] at hsame
          rw [requireDirectory_congr hsame]
          rfl
      | cons b names =>
          have hrest : d'.walk (l ++ [a]) ((b :: names).map .entry) =
              d.walk (l ++ [a]) ((b :: names).map .entry) := by
            refine ih ?_ ?_
            · intro front hfront
              rw [List.append_assoc]
              exact hgrown (a :: front) (List.cons_prefix_cons.mpr ⟨rfl, hfront⟩)
            · intro front last heq
              rw [List.append_assoc]
              exact hlast (a :: front) last (congrArg (a :: ·) heq)
          have hfirst := hgrown [] List.nil_prefix
          rw [List.append_nil] at hfirst
          rcases hfirst with hsame | ⟨hnone, hdirectory⟩
          · rw [requireDirectory_congr hsame, hrest]
          · -- below a place where nothing is there is nothing either, so the next name is not found
            have hbelow : d.at? (l ++ [a]) = none := by
              by_contra hne
              rw [htree l a hne] at hnone
              cases hnone
            have hstays : d.requireDirectory l = .error .notFound := by
              rw [requireDirectory, hnone]
            have hnext : d.requireDirectory (l ++ [a]) = .error .notFound := by
              rw [requireDirectory, hbelow]
            rw [hrest, hstays, requireDirectory_eq_ok_iff.mpr hdirectory, List.map_cons,
              walk_entry_cons, hnext]
            rfl

/-- What a path finds is the same when it leads to the same place, at which nothing changed. -/
theorem read_congr {d d' : Disk} {p : Path} (hlocate : d'.locate p = d.locate p)
    (hsame : d'.at? (d.place p) = d.at? (d.place p)) : d'.read p = d.read p := by
  have hfind : d'.find p = d.find p := by
    rw [find, find, hlocate]
    cases hplace : d.locate p with
    | error e => rfl
    | ok l =>
        rw [← eq_place_of_locate hplace] at hsame
        simp only [Except.bind, hsame]
  unfold Disk.read
  rw [hfind]

/-! ## Loading other projects -/

/-- Whether the root of the workspace leads up from directories only that are there. -/
def RootStays (settings : Settings) (d : Disk) : Prop :=
  ∀ front, front ++ [.above] <+: (workspace settings).parts →
    d.at? (placeFrom (d.start (workspace settings)) front) = some .directory

/-- A root without a part that leads up leads up from nowhere. -/
theorem rootStays_of_not_mem {settings : Settings} (h : Part.above ∉ (workspace settings).parts)
    (d : Disk) : RootStays settings d :=
  fun _ hfront => absurd (hfront.subset (List.mem_append_right _ (List.mem_singleton_self _))) h

/-- The way to a root that is a directory leads over directories only. -/
theorem rootStays_of_isDirectory {settings : Settings} {d : Disk}
    (h : d.isDirectory (workspace settings) = true) : RootStays settings d := by
  unfold isDirectory at h
  cases hfind : d.find (workspace settings) with
  | error e => simp [hfind] at h
  | ok found =>
      obtain ⟨hlocate, hplace, -⟩ := find_eq_ok hfind
      rw [hplace] at hlocate
      exact fun front hfront => walk_eq_ok_iff.mp hlocate front .above hfront

/-- Parts of a path are a way that ends by leading up, and names behind it. -/
theorem exists_up_names (parts : List Part) :
    ∃ up, ∃ names : List String, parts = up ++ names.map .entry ∧
      (up = [] ∨ ∃ front, up = front ++ [.above]) := by
  induction parts using List.reverseRecOn with
  | nil => exact ⟨[], [], rfl, Or.inl rfl⟩
  | append_singleton parts part ih =>
      cases part with
      | above => exact ⟨parts ++ [.above], [], (List.append_nil _).symm, Or.inr ⟨parts, rfl⟩⟩
      | entry name =>
          obtain ⟨up, names, hparts, hup⟩ := ih
          refine ⟨up, names ++ [name], ?_, hup⟩
          rw [hparts, List.map_append, List.append_assoc]
          rfl

/-- On a tree, a way that leads up from directories only leads over directories only. -/
theorem at?_of_front {d : Disk} (htree : IsTree d) {l : Location} {front : List Part}
    (h : ∀ q, q ++ [.above] <+: front ++ [.above] → d.at? (placeFrom l q) = some .directory)
    {q : List Part} (hq : q <+: front) : d.at? (placeFrom l q) = some .directory := by
  obtain ⟨back, rfl⟩ := hq
  induction back generalizing q with
  | nil =>
      rw [List.append_nil] at h
      exact h q List.prefix_rfl
  | cons part back ih =>
      have hsplit : q ++ part :: back = q ++ [part] ++ back := by simp
      rw [hsplit] at h
      cases part with
      | above =>
          refine h q ?_
          rw [List.append_assoc (q ++ [Part.above])]
          exact List.prefix_append _ _
      | entry name =>
          -- a directory lies in a directory
          have hnext := ih h
          rw [placeFrom_append] at hnext
          change d.at? (placeFrom l q ++ [name]) = _ at hnext
          exact htree (placeFrom l q) name (by simp [hnext])

/-- How a path leads to a directory by names behind a part of it that can be walked. -/
structure Split (d : Disk) (p : Path) (up : List Part) (names : List String) : Prop where
  parts : p.parts = up ++ names.map .entry
  front : ∀ q part, q ++ [part] <+: up → d.at? (placeFrom (d.start p) q) = some .directory

namespace Split

variable {d d' : Disk} {p : Path} {up : List Part} {names : List String}

/-- The directory is reached by names from the end of the part that can be walked. -/
theorem place_eq (h : Split d p up names) : d.place p = placeFrom (d.start p) up ++ names := by
  rw [place, h.parts, placeFrom_append, placeFrom_entries]

theorem walk_eq (h : Split d p up names) : d.walk (d.start p) up = .ok (placeFrom (d.start p) up) :=
  walk_eq_ok_iff.mpr h.front

end Split

/-- A root that leads up from directories only can be walked up to names. -/
theorem exists_split {settings : Settings} {d : Disk} (htree : IsTree d)
    (hroot : RootStays settings d) :
    ∃ up names, Split d (workspace settings) up names := by
  obtain ⟨up, names, hparts, hup⟩ := exists_up_names (workspace settings).parts
  refine ⟨up, names, hparts, fun q part hq => ?_⟩
  rcases hup with rfl | ⟨front, rfl⟩
  · cases q <;> cases List.prefix_nil.mp hq
  · have hfront : q <+: front := by
      refine List.prefix_of_prefix_length_le ((List.prefix_append q [part]).trans hq)
        (List.prefix_append front [.above]) ?_
      simpa using hq.length_le
    refine at?_of_front htree (fun q' hq' => hroot q' ?_) hfront
    rw [hparts]
    exact hq'.trans (List.prefix_append _ _)

section OtherProjects

variable {settings : Settings} {name other : String} {d d' : Disk} {up : List Part}
  {names : List String}

/-- The way to the folder of a project leads over the folder of no other project where a directory
is missing. -/
theorem at?_of_onTheWay (hne : other ≠ name) (hsplit : Split d (workspace settings) up names)
    {l : Location} (hl : d.place (projectFolder settings other) <+: l)
    (hway : OnTheWay d (projectFolder settings name) l) : d.at? l = some .directory := by
  obtain ⟨parts, hparts, rfl⟩ := hway
  change d.place _ <+: placeFrom (d.start (workspace settings)) parts at hl
  change d.at? (placeFrom (d.start (workspace settings)) parts) = _
  have hway : parts <+: up ++ (names ++ [name]).map .entry := by
    rw [List.map_append, ← List.append_assoc, ← hsplit.parts]
    exact hparts
  rw [place_projectFolder, hsplit.place_eq] at hl
  rcases List.prefix_or_prefix_of_prefix hway (List.prefix_append up _) with hfront | ⟨rest, rfl⟩
  · obtain ⟨rest, rfl⟩ := hfront
    cases rest with
    | nil =>
        rw [List.append_nil] at hl
        have hlength := hl.length_le
        simp at hlength
    | cons part rest =>
        exact hsplit.front parts part ⟨rest, by simp⟩
  · -- behind the walked part the way leads on by the names of the folder
    rw [List.prefix_append_right_inj, List.prefix_map_iff] at hway
    obtain ⟨front, hfront, rfl⟩ := hway
    rw [placeFrom_append, placeFrom_entries, List.append_assoc, List.prefix_append_right_inj] at hl
    have hlast := (List.prefix_append_right_inj names).mp (hl.trans hfront)
    exact absurd (List.cons_prefix_cons.mp hlast).1 hne

/-- Nothing changes in the folder of another project. -/
theorem Spares.at?_eq (h : Spares settings name d d') (hne : other ≠ name)
    (hsplit : Split d (workspace settings) up names) {l : Location}
    (hl : d.place (projectFolder settings other) <+: l) : d'.at? l = d.at? l := by
  rcases h.objects l (not_prefix_of_ne hne hl) with hsame | ⟨hway, hnone, -⟩
  · exact hsame
  · rw [at?_of_onTheWay hne hsplit hl hway] at hnone
    cases hnone

/-- The path of the manifest of another project leads where it led, or fails as it failed. -/
theorem Spares.locate_eq (h : Spares settings name d d') (hne : other ≠ name) (htree : IsTree d)
    (hsplit : Split d (workspace settings) up names) :
    d'.locate (manifestPath settings other) = d.locate (manifestPath settings other) := by
  set r := placeFrom (d.start (workspace settings)) up with hr
  have hstart : d'.start (manifestPath settings other) = d.start (workspace settings) := by
    rw [start, h.workingDirectory]
    rfl
  have hparts : (manifestPath settings other).parts =
      up ++ (names ++ [other, Manifest.fileName]).map .entry := by
    rw [List.map_append, ← List.append_assoc, ← hsplit.parts]
    simp [manifestPath, projectFolder, Path.child]
  have hwalk' : d'.walk (d.start (workspace settings)) up = .ok r :=
    walk_of_keepsDirectories h.keepsDirectories hsplit.walk_eq
  show d'.walk (d'.start _) _ = d.walk (d.start (workspace settings)) _
  rw [hstart, hparts, walk_append, walk_append, hwalk', hsplit.walk_eq]
  refine walk_entries_congr htree (fun front hfront => ?_) (fun front last heq => ?_)
  · -- no front of this way leads into the folder of the project that is saved
    refine (h.objects _ fun hl => ?_).imp_right And.right
    rw [place_projectFolder, hsplit.place_eq, List.append_assoc, List.prefix_append_right_inj] at hl
    have hnext := (List.prefix_append_right_inj names).mp (hl.trans hfront)
    exact hne (List.cons_prefix_cons.mp hnext).1.symm
  · have hfront : front = names ++ [other] := by
      have hcut := congrArg List.dropLast heq
      simpa [List.dropLast_append_of_ne_nil] using hcut.symm
    refine h.at?_eq hne hsplit ?_
    rw [place_projectFolder, hsplit.place_eq, hfront, List.append_assoc]

/-- Another project is loaded as before. -/
theorem Spares.loaded_eq (h : Spares settings name d d') (hother : Usable other)
    (hne : other ≠ name) (htree : IsTree d) (hroot : RootStays settings d) :
    loaded settings other d' = loaded settings other d := by
  obtain ⟨up, names, hsplit⟩ := exists_split htree hroot
  have hplace : d.place (manifestPath settings other) =
      d.place (projectFolder settings other) ++ [Manifest.fileName] := by
    rw [manifestPath, place, Path.child, placeFrom_append]
    rfl
  have hread : d'.read (manifestPath settings other) = d.read (manifestPath settings other) := by
    refine read_congr (h.locate_eq hne htree hsplit) (h.at?_eq hne hsplit ?_)
    rw [hplace]
    exact List.prefix_append _ _
  rw [loaded_eq_recovered settings hother, loaded_eq_recovered settings hother, hread]

end OtherProjects

/-! ## Saving as other projects see it -/

/-- A name that is not one component of letters, digits, underscores and hyphens is refused before
the first call. Otherwise every call of a save touches nothing but the folder of its project and the
missing directories on the way to it, whether the save succeeds or fails and whichever calls fail.
So no file of another project changes at any moment, and another project is loaded as before unless
the root of the workspace leads up from a directory that was missing. -/
theorem confined_saveConfig (settings : Settings) (config : Config) (name : String) (w : World) :
    (¬Usable config.name → ∃ problem, Project.nameProblem? config.name = some problem ∧
      (saveConfig settings config : ExceptT Failure (StateM World) Status).run w =
        (.error (.invalid [.projectName problem]), w)) ∧
    (¬Usable name → ∃ problem, Project.nameProblem? name = some problem ∧
      (load settings name : ExceptT Failure (StateM World) Payload).run w =
        (.error (.invalid [.projectName problem]), w)) ∧
    (Usable config.name →
      After (saveConfig settings config : ExceptT Failure (StateM World) Status).run w fun _ w' =>
        ∃ events, w'.journal = w.journal ++ events ∧
          (∀ event ∈ events, Confined settings config.name event.call) ∧
            ∀ d ∈ events.map Event.disk ++ [w'.disk], Spares settings config.name w.disk d ∧
              ∀ other, Usable other → other ≠ config.name →
                (∀ l, w.disk.place (projectFolder settings other) <+: l →
                  d.content? l = w.disk.content? l) ∧
                (IsTree w.disk → RootStays settings w.disk →
                  loaded settings other d = loaded settings other w.disk)) := by
  refine ⟨fun hname => ?_, fun hname => ?_, fun husable => ?_⟩
  · obtain ⟨problem, hproblem, hsave, -⟩ := refused_of_not_usable hname
    exact ⟨problem, hproblem, hsave settings config w rfl⟩
  · obtain ⟨problem, hproblem, -, hload⟩ := refused_of_not_usable hname
    exact ⟨problem, hproblem, hload settings w⟩
  · have hnone := (nameProblem?_eq_none_iff_usable config.name).mpr husable
    refine (calls_saveConfig settings hnone w).mono fun r w' h => ?_
    obtain ⟨calls, hmakes, hworks, -⟩ := h
    have hroot := root_eq_projectFolder settings husable.toIsEntryName
    rw [hroot] at hworks
    have hconfined : ∀ call ∈ calls, Confined settings config.name call := fun call hcall =>
      (hworks call hcall).confined (apart_projectFiles settings config).named
    obtain ⟨events, hjournal, hevents, hspares, hlast⟩ := spares_of_confined hmakes hconfined
    refine ⟨events, hjournal, fun event hevent => ?_, fun d hd => ?_⟩
    · exact hconfined event.call (hevents ▸ List.mem_map_of_mem hevent)
    · have hd : Spares settings config.name w.disk d := by
        rcases List.mem_append.mp hd with hd | hd
        · obtain ⟨event, hevent, rfl⟩ := List.mem_map.mp hd
          exact hspares event hevent
        · rw [List.mem_singleton.mp hd]
          exact hlast
      exact ⟨hd, fun other hother hne => ⟨fun l hl => hd.content?_eq hne hl, fun htree hroot =>
        hd.loaded_eq hother hne htree hroot⟩⟩

/-- A workspace that holds the manifest of a project `beta`. -/
def betaWorkspace : World where
  disk := {
    objects := [(["ws"], .directory), (["ws", "beta"], .directory),
      (["ws", "beta", "meta.yaml"], .file (.text "persoid: bob\n"))] }

/-- The workspace with the project `beta` is a tree. -/
theorem isTree_betaWorkspace : IsTree betaWorkspace.disk :=
  isTree_of_objects (by decide)

theorem usable_beta : Usable "beta" :=
  (nameProblem?_eq_none_iff_usable "beta").mp (by decide)

theorem usable_threeTasks : Usable Dag.threeTasks.toConfig.name :=
  (nameProblem?_eq_none_iff_usable _).mp (by decide)

/-- The disk after a project is saved there, with the given settings. -/
def besideBeta (settings : Settings) : Disk :=
  ((saveConfig settings Dag.threeTasks.toConfig : ExceptT Failure (StateM World) Status).run
    betaWorkspace).2.disk

/-- Settings with a root that leads up from the folder of the project `beta`. -/
def upSettings : Settings where
  workspaceRoot := "/ws/beta/.."

/-- A name that escapes is refused, and saving another project does not change what loading `beta`
gives, whether the root of the workspace leads up from a directory or not at all. -/
theorem confined_saveConfig_beside_beta :
    Usable Dag.threeTasks.toConfig.name ∧ ¬Usable "../beta" ∧
      (∃ problem, (load shortSettings "../beta" : ExceptT Failure (StateM World) Payload).run
        betaWorkspace = (.error (.invalid [.projectName problem]), betaWorkspace)) ∧
      loaded shortSettings "beta" (besideBeta shortSettings) =
        loaded shortSettings "beta" betaWorkspace.disk ∧
      loaded upSettings "beta" (besideBeta upSettings) =
        loaded upSettings "beta" betaWorkspace.disk := by
  have hescapes : ¬Usable "../beta" := by
    rw [← nameProblem?_eq_none_iff_usable]
    decide
  obtain ⟨-, hload, hsave⟩ :=
    confined_saveConfig shortSettings Dag.threeTasks.toConfig "../beta" betaWorkspace
  obtain ⟨-, -, hsave'⟩ :=
    confined_saveConfig upSettings Dag.threeTasks.toConfig "../beta" betaWorkspace
  refine ⟨usable_threeTasks, hescapes, ?_, ?_, ?_⟩
  · obtain ⟨problem, -, hrun⟩ := hload hescapes
    exact ⟨problem, hrun⟩
  · obtain ⟨events, -, -, hdisks⟩ := hsave usable_threeTasks
    obtain ⟨-, hothers⟩ := hdisks _ (List.mem_append_right _ (List.mem_singleton_self _))
    exact (hothers "beta" usable_beta (by decide)).2 isTree_betaWorkspace
      (rootStays_of_not_mem (by decide) _)
  · obtain ⟨events, -, -, hdisks⟩ := hsave' usable_threeTasks
    obtain ⟨-, hothers⟩ := hdisks _ (List.mem_append_right _ (List.mem_singleton_self _))
    exact (hothers "beta" usable_beta (by decide)).2 isTree_betaWorkspace
      (rootStays_of_isDirectory (by decide))

/-- Settings with a root that leads up from the place of the manifest of the project `beta`. -/
def throughBetaSettings : Settings where
  workspaceRoot := "ws/beta/meta.yaml/../.."

/-- Saving a project can change the result of loading another one: the place from which the root
of the workspace leads up gets a directory, and it is the place of the manifest of the other
project. -/
theorem not_forall_loaded_eq :
    ¬∀ (settings : Settings) (config : Config) (other : String) (w : World),
      IsTree w.disk → Usable config.name → Usable other → other ≠ config.name →
        loaded settings other
            ((saveConfig settings config : ExceptT Failure (StateM World) Status).run w).2.disk =
          loaded settings other w.disk := by
  intro h
  have htree : IsTree nowhere.disk := isTree_of_objects (by decide)
  have hsame := h throughBetaSettings Dag.threeTasks.toConfig "beta" nowhere htree
    usable_threeTasks usable_beta (by decide)
  have hchanged : loaded throughBetaSettings "beta"
      ((saveConfig throughBetaSettings Dag.threeTasks.toConfig :
        ExceptT Failure (StateM World) Status).run nowhere).2.disk ≠
      loaded throughBetaSettings "beta" nowhere.disk := by decide +kernel
  exact hchanged hsame

end DagScaffold.Store
