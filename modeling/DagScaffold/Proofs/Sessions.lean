import Mathlib
import DagScaffold.Proofs.SavingProgress

/-!
# Sessions

A session saves and loads projects one after the other. When it starts with an empty workspace,
nobody else writes there and no call fails by itself, it answers as a map from names to
configurations would: a project is what was saved last under its name. This takes a root that does
not lead up from a missing place in the folder of a project, where the first save would make a
directory.

* `Request`, `answer`, `session` : sessions of a store;
* `lastSaved`, `expected` : the map, and the answers that follow from it;
* `EmptyWorkspace`, `Holds`, `holds_answer` : what is on the disk between two requests;
* `answer_session` : the answers of a session;
* `not_forall_answer_eq_expected` : a root for which they are others.
-/

namespace DagScaffold.Store

open DagScaffold.Files

open Disk World

/-! ## Requests -/

/-- What a store is asked for. -/
inductive Request where
  | save (payload : Payload)
  | load (name : String)

/-- What comes of a request. -/
inductive Answer where
  | saved (r : Except Failure Status)
  | loaded (r : Except Failure Payload)

/-- Answers a request. -/
def answer (settings : Settings) : Request → StateM World Answer
  | .save payload => .saved <$> (save settings payload : ExceptT Failure (StateM World) Status).run
  | .load name => .loaded <$> (load settings name : ExceptT Failure (StateM World) Payload).run

/-- The world after a list of requests. -/
def session (settings : Settings) (requests : List Request) (w : World) : World :=
  requests.foldl (fun v request => (answer settings request v).2) w

/-- The configuration that a request saves, if its payload is valid. -/
def Request.config? : Request → Option Config
  | .save payload => payload.validate.toOption
  | .load _ => none

/-- The configuration that was saved last under a name. -/
def lastSaved (requests : List Request) (name : String) : Option Config :=
  (requests.filterMap Request.config?).reverse.find? fun c => c.name = name

/-- What a map from names to configurations answers to a request. -/
def expected (settings : Settings) (saves : String → Option Config) (clock : Instant) :
    Request → Answer
  | .save payload =>
    match payload.validate with
    | .error violations => .saved (.error (.invalid violations))
    | .ok c =>
      .saved (.ok ⟨if (saves c.name).isSome then .updated else .created, settings.projectDir c.name,
        (projectFiles settings c).map ProjectFile.pathText, clock⟩)
  | .load name =>
    match Project.nameProblem? name with
    | some problem => .loaded (.error (.invalid [.projectName problem]))
    | none =>
      match saves name with
      | none => .loaded (.error (.notFound name (settings.projectDir name)))
      | some c =>
        match Manifest.read (Manifest.write settings c) with
        | .ok manifest => .loaded (.ok (manifest.toPayload name))
        | .error fault => .loaded (.error (.manifest fault))

/-- The last save of a name is the last request, or the last one before. -/
theorem lastSaved_concat (requests : List Request) (request : Request) (name : String) :
    lastSaved (requests ++ [request]) name =
      match request.config? with
      | some c => if c.name = name then some c else lastSaved requests name
      | none => lastSaved requests name := by
  unfold lastSaved
  rw [List.filterMap_append]
  cases hconfig : request.config? with
  | none => simp [hconfig]
  | some c => by_cases hname : c.name = name <;> simp [hconfig, hname]

/-! ## The disk between two requests -/

/-- Whether a place is below the root of the workspace. -/
def Below (settings : Settings) (d : Disk) (l : Location) : Prop :=
  ∃ name rest, l = d.place (workspace settings) ++ name :: rest

/-- Whether a place is in a folder that a project can have. -/
def InProject (settings : Settings) (d : Disk) (l : Location) : Prop :=
  ∃ name rest, Usable name ∧ l = d.place (workspace settings) ++ name :: rest

/-- Whether nothing is in the workspace, and nothing but directories is on the way to it. -/
structure EmptyWorkspace (settings : Settings) (d : Disk) : Prop where
  start : d.at? (d.start (workspace settings)) = some .directory
  way : ∀ l, OnTheWay d (workspace settings) l → d.at? l = some .directory ∨ d.at? l = none
  empty : ∀ l, Below settings d l → d.at? l = none

/-- The files and directories of the saved projects are on the disk, with the contents that were
saved last. Nothing else is in a folder that a project can have, and no file besides in the
workspace. -/
structure Holds (settings : Settings) (saves : String → Option Config) (d : Disk) : Prop where
  start : d.at? (d.start (workspace settings)) = some .directory
  way : ∀ l, OnTheWay d (workspace settings) l →
    (d.at? l = some .directory ∨ d.at? l = none) ∧ ¬InProject settings d l
  named : ∀ name c, saves name = some c → c.name = name
  files : ∀ name c, saves name = some c → ∀ f ∈ projectFiles settings c,
    d.find (filePath (projectFolder settings name) f) =
      .ok (d.place (filePath (projectFolder settings name) f), .file (.text f.content))
  directories : ∀ name c, saves name = some c → ∀ directory ∈ subdirectories,
    Stands d ((projectFolder settings name).child directory)
  others : ∀ name rest o, d.at? (d.place (workspace settings) ++ name :: rest) = some o →
    (∃ c, saves name = some c ∧
      (rest ∈ Store.directories ∧ o = .directory ∨ rest ∈ paths c ∧ ∃ content, o = .file content)) ∨
      ¬Usable name ∧ o = .directory

/-- The way to an empty workspace leads over no place in the folder of a project, unless it leads up
from there. -/
theorem EmptyWorkspace.not_inProject {settings : Settings} {d : Disk}
    (h : EmptyWorkspace settings d)
    (hroot : ∀ l, InProject settings d l → ¬UpFromMissing d (workspace settings) l) {l : Location}
    (hl : OnTheWay d (workspace settings) l) : ¬InProject settings d l := by
  intro hin
  obtain ⟨name, rest, husable, rfl⟩ := hin
  refine hroot _ ⟨name, rest, husable, rfl⟩ (hl.upFromMissing (h.empty _ ⟨name, rest, rfl⟩) ?_)
  intro hprefix
  have hlength := hprefix.length_le
  rw [List.length_append, List.length_cons] at hlength
  omega

/-- On the disk with an empty workspace is what was saved before the first save. -/
theorem EmptyWorkspace.holds {settings : Settings} {d : Disk} (h : EmptyWorkspace settings d)
    (hroot : ∀ l, InProject settings d l → ¬UpFromMissing d (workspace settings) l) :
    Holds settings (fun _ => none) d where
  start := h.start
  way := fun l hl => ⟨h.way l hl, h.not_inProject hroot hl⟩
  named := fun _ _ hnone => by cases hnone
  files := fun _ _ hnone => by cases hnone
  directories := fun _ _ hnone => by cases hnone
  others := fun name rest o ho => by
    rw [h.empty _ ⟨name, rest, rfl⟩] at ho
    cases ho

/-- A directory in which nothing is can be the workspace. -/
theorem emptyWorkspace_of_isDirectory {settings : Settings} {d : Disk}
    (h : d.isDirectory (workspace settings) = true)
    (hempty : ∀ l, Below settings d l → d.at? l = none) :
    EmptyWorkspace settings d := by
  have hstands := stands_of_isDirectory h
  exact ⟨hstands _ ⟨[], List.nil_prefix, rfl⟩, fun l hl => Or.inl (hstands l hl), hempty⟩

/-- The root of the workspace leads up from no missing place when it is a directory. -/
theorem not_upFromMissing_of_isDirectory {settings : Settings} {d : Disk}
    (h : d.isDirectory (workspace settings) = true) (l : Location) :
    ¬UpFromMissing d (workspace settings) l := by
  rintro ⟨hmissing, front, hfront, rfl⟩
  rw [rootStays_of_isDirectory h front hfront] at hmissing
  cases hmissing

section Places

variable {settings : Settings} {name : String} {d : Disk}

theorem place_descend_projectFolder (d : Disk) (settings : Settings) (name : String)
    (names : List String) :
    d.place ((projectFolder settings name).descend names) =
      d.place (workspace settings) ++ name :: names := by
  rw [place_descend, place_projectFolder, List.append_assoc, List.singleton_append]

/-- A temporary file of a project is beside its file in the folder of the project. -/
theorem place_temporaryPath_projectFolder (d : Disk) (settings : Settings) (name : String)
    {f : ProjectFile} (hnamed : f.path ≠ []) (n : Nat) :
    d.place (temporaryPath (filePath (projectFolder settings name) f) n) =
      d.place (workspace settings) ++ name :: temporaryNames f.path n := by
  rw [filePath, place_temporaryPath _ _ hnamed, place_projectFolder, List.append_assoc,
    List.singleton_append]

/-- A place that is in the folder of no project is that of no file of a project. -/
theorem ne_place_file_of_not_inProject {l : Location} (hl : ¬InProject settings d l)
    (husable : Usable name) (f : ProjectFile) :
    l ≠ d.place (filePath (projectFolder settings name) f) := by
  rintro rfl
  exact hl ⟨name, f.path, husable, place_descend_projectFolder d settings name f.path⟩

/-- The way into the folder of a project leads over the way to the workspace and places in the
folder. -/
theorem onTheWay_descend_projectFolder {names : List String} {l : Location}
    (h : OnTheWay d ((projectFolder settings name).descend names) l) :
    OnTheWay d (workspace settings) l ∨
      ∃ front, front <+: names ∧ l = d.place (workspace settings) ++ name :: front := by
  change OnTheWay d ((workspace settings).descend (name :: names)) l at h
  rcases onTheWay_descend h with hway | ⟨front, hfront, rfl⟩
  · exact Or.inl hway
  · cases front with
    | nil => exact Or.inl ⟨_, List.prefix_rfl, List.append_nil _⟩
    | cons a front =>
        obtain ⟨rfl, hrest⟩ := List.cons_prefix_cons.mp hfront
        exact Or.inr ⟨front, hrest, rfl⟩

theorem prefix_mem_directories {front directory : List String}
    (hdirectory : directory ∈ directories) (hfront : front <+: directory) :
    front ∈ directories := by
  have hall : ∀ directory ∈ directories, ∀ front ∈ directory.inits, front ∈ directories := by decide
  exact hall directory hdirectory front ((List.mem_inits front directory).mpr hfront)

end Places

/-! ## What follows from it -/

namespace Holds

variable {settings : Settings} {saves : String → Option Config} {d : Disk}

/-- A way into the folder of a project is passable, but for the places of its files. -/
theorem passable (h : Holds settings saves d) {name : String} {names : List String}
    (hnames : ∀ front, front <+: names → ∀ c, saves name = some c → front ∉ paths c) :
    Passable d ((projectFolder settings name).descend names) := by
  obtain ⟨-, habsolute⟩ := descend_parts (projectFolder settings name) names
  have hstart : d.start ((projectFolder settings name).descend names) =
      d.start (workspace settings) := by
    rw [Disk.start, habsolute]
    rfl
  refine ⟨?_, fun l hl => ?_⟩
  · rw [hstart]
    exact h.start
  · rcases onTheWay_descend_projectFolder hl with hway | ⟨front, hfront, rfl⟩
    · exact (h.way l hway).1
    · cases hat : d.at? (d.place (workspace settings) ++ name :: front) with
      | none => exact Or.inr rfl
      | some o =>
          rcases h.others name front o hat with ⟨c, hc, ⟨-, hdirectory⟩ | ⟨hpath, -⟩⟩ |
            ⟨-, hdirectory⟩
          · exact Or.inl (congrArg some hdirectory)
          · exact absurd hpath (hnames front hfront c hc)
          · exact Or.inl (congrArg some hdirectory)

/-- Nothing is in the folder of a project that was not saved. -/
theorem at?_eq_none (h : Holds settings saves d) {name : String} (husable : Usable name)
    (hname : saves name = none) (rest : List String) :
    d.at? (d.place (workspace settings) ++ name :: rest) = none := by
  by_contra hne
  obtain ⟨o, ho⟩ := Option.ne_none_iff_exists'.mp hne
  obtain ⟨c, hc, -⟩ := (h.others name rest o ho).resolve_right fun hother => hother.1 husable
  rw [hname] at hc
  cases hc

/-- There is nothing to find in the folder of a project that was not saved. -/
theorem find_eq_notFound (h : Holds settings saves d) {name : String} (husable : Usable name)
    (hname : saves name = none) (names : List String) :
    d.find ((projectFolder settings name).descend names) = .error .notFound := by
  have hpassable : Passable d ((projectFolder settings name).descend names) :=
    h.passable fun _ _ c hc => by
      rw [hname] at hc
      cases hc
  refine hpassable.find_eq ?_
  rw [place_descend_projectFolder]
  exact h.at?_eq_none husable hname names

/-- The folder of a project is there as soon as the project was saved. -/
theorem exists?_projectFolder (h : Holds settings saves d) {name : String} (husable : Usable name) :
    d.exists? (projectFolder settings name) = .ok (saves name).isSome := by
  cases hname : saves name with
  | none =>
      have hfind := h.find_eq_notFound husable hname []
      change d.find (projectFolder settings name) = _ at hfind
      rw [exists?, hfind]
      rfl
  | some c =>
      have hstands := h.directories name c hname "src" (by decide)
      have hfolder : Stands d (projectFolder settings name) := by
        rintro l ⟨parts, hparts, rfl⟩
        exact hstands _ ⟨parts, hparts.trans (List.prefix_append _ _), rfl⟩
      rw [exists?, hfolder.find_eq]
      rfl

/-- The manifest of a project has the content that was saved last. -/
theorem read_manifestPath (h : Holds settings saves d) {name : String} (husable : Usable name) :
    d.read (manifestPath settings name) =
      match saves name with
      | some c => .ok (Manifest.write settings c)
      | none => .error .notFound := by
  cases hname : saves name with
  | none =>
      have hfind := h.find_eq_notFound husable hname [Manifest.fileName]
      change d.find (manifestPath settings name) = _ at hfind
      unfold Disk.read
      rw [hfind]
      rfl
  | some c => exact read_of_find (h.files name c hname _ List.mem_cons_self)

/-- There is always room for another project, and for saving one again. -/
theorem fits (h : Holds settings saves d) {c : Config} (husable : Usable c.name) :
    Fits settings c d := by
  have hroot := root_eq_projectFolder settings husable.toIsEntryName
  -- the files that are in the folder belong to a project of the same name
  have hpaths {c' : Config} (hc' : saves c.name = some c') : paths c' = paths c := by
    rw [paths, paths, Config.dagFile, Config.dagFile, h.named _ _ hc']
  have hoff {names : List String} (hnames : ∀ directory ∈ Store.directories, ¬names <+: directory) :
      ¬Way settings c d (d.place (workspace settings) ++ c.name :: names) := by
    rintro ⟨directory, hdirectory, hway⟩
    rw [hroot] at hway
    rcases onTheWay_descend_projectFolder hway with hway | ⟨front, hfront, heq⟩
    · exact (h.way _ hway).2 ⟨c.name, names, husable, rfl⟩
    · obtain ⟨-, rfl⟩ := List.cons.inj (List.append_cancel_left heq)
      exact hnames directory hdirectory hfront
  refine ⟨fun directory hdirectory => ?_, fun f hf => ?_, fun f hf n => ?_⟩
  · rw [hroot]
    refine h.passable fun front hfront c' hc' hpath => ?_
    rw [hpaths hc'] at hpath
    exact not_prefix_of_mem_paths hpath (prefix_mem_directories hdirectory hfront) List.prefix_rfl
  · rw [hroot, filePath, place_descend_projectFolder]
    refine ⟨fun hat => ?_, hoff fun directory hdirectory => not_prefix_directories hf hdirectory⟩
    obtain ⟨c', -, ⟨hdirectory, -⟩ | ⟨-, content, hfile⟩⟩ :=
      (h.others _ _ _ hat).resolve_right fun hother => hother.1 husable
    · exact not_prefix_directories hf hdirectory List.prefix_rfl
    · cases hfile
  · have hlast := lastChar?_temporaryNames [] f.path n
    rw [List.nil_append] at hlast
    have hending : ∀ directory ∈ Store.directories, lastChar? directory ≠ some 'p' := by decide
    rw [hroot, place_temporaryPath_projectFolder d settings c.name
      ((apart_projectFiles settings c).named f hf)]
    refine ⟨?_, hoff fun directory hdirectory hprefix => ?_⟩
    · by_contra hne
      obtain ⟨o, ho⟩ := Option.ne_none_iff_exists'.mp hne
      obtain ⟨c', hc', ⟨hdirectory, -⟩ | ⟨hpath, -⟩⟩ :=
        (h.others _ _ _ ho).resolve_right fun hother => hother.1 husable
      · exact hending _ hdirectory hlast
      · exact lastChar?_of_mem_paths hpath hlast
    · exact hending _ (prefix_mem_directories hdirectory hprefix) hlast

/-- No temporary file is left. -/
theorem ne_temporaryName (h : Holds settings saves d) {l : Location} {content : Content}
    (hbelow : Below settings d l) (hat : d.at? l = some (.file content)) (name tag : String) :
    l.getLast? ≠ some (temporaryName name tag) := by
  intro hname
  obtain ⟨project, rest, rfl⟩ := hbelow
  rcases h.others project rest _ hat with ⟨c, -, ⟨-, hdirectory⟩ | ⟨hpath, -⟩⟩ | ⟨-, hdirectory⟩
  · cases hdirectory
  · have hne : rest ≠ [] := by
      rintro rfl
      exact not_prefix_of_mem_paths hpath
        (List.mem_cons_self : [] ∈ Store.directories) List.prefix_rfl
    refine lastChar?_of_mem_paths hpath ?_
    rw [List.getLast?_append_of_ne_nil _ (List.cons_ne_nil project rest),
      List.getLast?_cons_of_ne_nil hne] at hname
    rw [lastChar?, hname, Option.bind_some, getLast?_temporaryName]
  · cases hdirectory

end Holds

/-! ## What a request does -/

section Step

variable {settings : Settings} {saves : String → Option Config} {w : World}

/-- A map with another configuration under its name. -/
def store (saves : String → Option Config) (c : Config) (name : String) : Option Config :=
  if c.name = name then some c else saves name

section Saved

variable {d d' : Disk} {c : Config}

/-- The files of another project are where they were. -/
theorem Holds.find_of_saved (h : Holds settings saves d) (hkept : KeepsDirectories d d')
    (hsaved : Saved (Way settings c d) (projectFolder settings c.name) (projectFiles settings c)
      d d')
    {name : String} (hname : c.name ≠ name) {c' : Config} (hc' : saves name = some c')
    {f : ProjectFile} (hf : f ∈ projectFiles settings c') :
    d'.find (filePath (projectFolder settings name) f) =
      .ok (d.place (filePath (projectFolder settings name) f), .file (.text f.content)) := by
  have hfound := h.files name c' hc' f hf
  obtain ⟨-, -, hat, -⟩ := find_eq_ok hfound
  refine find_of_keepsDirectories hkept hsaved.workingDirectory hfound (hsaved.at?_eq_some ?_ hat)
  intro g _ heq
  rw [filePath, filePath, place_descend_projectFolder, place_descend_projectFolder] at heq
  exact hname (List.cons.inj (List.append_cancel_left heq)).1.symm

/-- What is in the workspace belongs to the project that was saved, or was there before. -/
theorem Holds.others_of_saved (h : Holds settings saves d) (husable : Usable c.name)
    (hsaved : Saved (Way settings c d) (projectFolder settings c.name) (projectFiles settings c)
      d d')
    {name : String} {rest : List String} {o : Object}
    (ho : d'.at? (d.place (workspace settings) ++ name :: rest) = some o) :
    (∃ c', store saves c name = some c' ∧
      (rest ∈ Store.directories ∧ o = .directory ∨
        rest ∈ paths c' ∧ ∃ content, o = .file content)) ∨
      ¬Usable name ∧ o = .directory := by
  by_cases hplaced : ∃ f ∈ projectFiles settings c,
      d.place (workspace settings) ++ name :: rest =
        d.place (filePath (projectFolder settings c.name) f)
  · obtain ⟨f, hf, heq⟩ := hplaced
    obtain ⟨-, -, hat, -⟩ := find_eq_ok (hsaved.found f hf)
    rw [heq, hat] at ho
    rw [filePath, place_descend_projectFolder] at heq
    obtain ⟨rfl, rfl⟩ := List.cons.inj (List.append_cancel_left heq)
    exact Or.inl ⟨c, if_pos rfl, Or.inr ⟨path_mem_paths hf, _, (Option.some.inj ho).symm⟩⟩
  · have hothers := hsaved.others _ fun f hf heq => hplaced ⟨f, hf, heq⟩
    rcases hothers with hsame | ⟨⟨directory, hdirectory, hway⟩, -, hnew⟩
    · rw [hsame] at ho
      refine (h.others name rest o ho).imp_left ?_
      rintro ⟨c', hc', hobject⟩
      by_cases hname : c.name = name
      · -- the paths of a project depend on its name only
        have hpaths : paths c' = paths c := by
          rw [paths, paths, Config.dagFile, Config.dagFile, h.named _ _ hc', hname]
        rw [hpaths] at hobject
        exact ⟨c, if_pos hname, hobject⟩
      · exact ⟨c', (if_neg hname).trans hc', hobject⟩
    · rw [root_eq_projectFolder settings husable.toIsEntryName] at hway
      rcases onTheWay_descend_projectFolder hway with hway | ⟨front, hfront, heq⟩
      · rw [hnew] at ho
        refine Or.inr ⟨fun hname => (h.way _ hway).2 ⟨name, rest, hname, rfl⟩, ?_⟩
        exact (Option.some.inj ho).symm
      · obtain ⟨rfl, rfl⟩ := List.cons.inj (List.append_cancel_left heq)
        rw [hnew] at ho
        obtain rfl := Option.some.inj ho
        exact Or.inl ⟨c, if_pos rfl, Or.inl ⟨prefix_mem_directories hdirectory hfront, rfl⟩⟩

/-- The files of a saved project join those of the others. -/
theorem Holds.saved (h : Holds settings saves d) (husable : Usable c.name)
    (hsaved : Saved (Way settings c d) (root settings c) (projectFiles settings c) d d')
    (hstands : ∀ directory ∈ subdirectories, Stands d' ((root settings c).child directory)) :
    Holds settings (store saves c) d' := by
  have hkept : KeepsDirectories d d' :=
    hsaved.keepsDirectories fun f hf => ((h.fits husable).files f hf).1
  rw [root_eq_projectFolder settings husable.toIsEntryName] at hsaved hstands
  have hplace (p : Path) : d'.place p = d.place p := place_congr hsaved.workingDirectory p
  have hstart (p : Path) : d'.start p = d.start p := by
    rw [Disk.start, Disk.start, hsaved.workingDirectory]
  refine ⟨?_, fun l hl => ?_, fun name c' hc' => ?_, fun name c' hc' f hf => ?_,
    fun name c' hc' directory hdirectory => ?_, fun name rest o ho => ?_⟩
  · rw [hstart]
    exact hkept _ h.start
  · obtain ⟨parts, hparts, rfl⟩ := hl
    rw [hstart]
    obtain ⟨hat, hout⟩ := h.way _ ⟨parts, hparts, rfl⟩
    rw [InProject, hplace]
    refine ⟨?_, hout⟩
    rcases hsaved.others _ fun f _ => ne_place_file_of_not_inProject hout husable f with
      hsame | ⟨-, -, hnew⟩
    · rw [hsame]
      exact hat
    · exact Or.inl hnew
  · unfold store at hc'
    split_ifs at hc' with hname
    · rw [← Option.some.inj hc', hname]
    · exact h.named name c' hc'
  · unfold store at hc'
    rw [hplace]
    split_ifs at hc' with hname
    · obtain rfl := Option.some.inj hc'
      rw [← hname]
      exact hsaved.found f hf
    · exact h.find_of_saved hkept hsaved hname hc' hf
  · unfold store at hc'
    split_ifs at hc' with hname
    · rw [← hname]
      exact hstands directory hdirectory
    · exact (h.directories name c' hc' directory hdirectory).kept hkept hsaved.workingDirectory
  · rw [hplace] at ho
    exact h.others_of_saved husable hsaved ho

end Saved

/-- Saving a configuration stores it under its name. -/
theorem holds_saveConfig (h : Holds settings saves w.disk) (hfaults : Faultless w) {c : Config}
    (husable : Usable c.name) :
    After (saveConfig settings c : ExceptT Failure (StateM World) Status).run w fun r w' =>
      r = .ok ⟨if (saves c.name).isSome then .updated else .created, settings.projectDir c.name,
          (projectFiles settings c).map ProjectFile.pathText, w.clock⟩ ∧
        Holds settings (store saves c) w'.disk ∧
          ∃ calls, Makes w calls w' ∧ calls.filterMap Call.replaced? =
            (projectFiles settings c).map (filePath (projectFolder settings c.name)) := by
  have hnone := (nameProblem?_eq_none_iff_usable c.name).mpr husable
  have hroot := root_eq_projectFolder settings husable.toIsEntryName
  have hfits := h.fits husable
  have hexists : w.disk.exists? (root settings c) = .ok (saves c.name).isSome := by
    rw [hroot]
    exact h.exists?_projectFolder husable
  have hok := succeeds_saveConfig hnone hfaults hfits hexists
  have hafter := after_saveConfig hnone (fun n path => hfaults n (.remove path))
    fun f hf n _ => (hfits.temporaries f hf n).1
  have hcalls := calls_saveConfig settings hnone w
  refine ((hok.and hafter).and hcalls).mono ?_
  rintro _ w' ⟨⟨⟨rfl, hstands⟩, -, hsaved⟩, calls, hmakes, -, hreplaced⟩
  refine ⟨?_, h.saved husable hsaved hstands, calls, hmakes, ?_⟩
  · rw [hmakes.clock]
  · rw [hreplaced rfl, hroot]

/-- A load answers from the map and leaves the disk as it is. -/
theorem holds_load (h : Holds settings saves w.disk) (hfaults : Faultless w) (name : String) :
    After (answer settings (.load name)) w fun a w' =>
      a = expected settings saves w.clock (.load name) ∧ w'.disk = w.disk ∧
        ∃ calls, Makes w calls w' := by
  by_cases husable : Usable name
  · have hread :
        (FileSystem.read (manifestPath settings name) : StateM World (Except Error String)) w =
        (w.disk.read (manifestPath settings name),
          { w with journal := w.journal ++ [⟨.read (manifestPath settings name), w.disk⟩] }) :=
      perform_look (hfaults _ _)
    have hcalls : After (FileSystem.read (manifestPath settings name)) w fun _ w' =>
        Makes w [.read (manifestPath settings name)] w' := makes_look w
    have hrun := run_load settings husable w
    rw [After, hread] at hcalls
    rw [hread, h.read_manifestPath husable] at hrun
    refine After.map ?_
    rw [After, hrun]
    refine ⟨?_, rfl, _, hcalls⟩
    rw [expected, (nameProblem?_eq_none_iff_usable name).mpr husable]
    cases saves name with
    | none => rfl
    | some c =>
        dsimp only [recovered]
        cases Manifest.read (Manifest.write settings c) <;> rfl
  · obtain ⟨problem, hproblem, -, hload⟩ := refused_of_not_usable husable
    refine After.map ?_
    rw [After, hload settings w]
    refine ⟨?_, rfl, [], Makes.refl w⟩
    rw [expected, hproblem]

/-- A save answers from the map and stores what is valid. -/
theorem holds_save (h : Holds settings saves w.disk) (hfaults : Faultless w) (payload : Payload) :
    After (answer settings (.save payload)) w fun a w' =>
      a = expected settings saves w.clock (.save payload) ∧
        match payload.validate with
        | .error _ => w' = w
        | .ok c => Holds settings (store saves c) w'.disk ∧ ∃ calls, Makes w calls w' ∧
            calls.filterMap Call.replaced? =
              (projectFiles settings c).map (filePath (projectFolder settings c.name)) := by
  refine After.map ?_
  unfold save
  cases hvalid : payload.validate with
  | error violations =>
      refine After.pure ⟨?_, rfl⟩
      rw [expected, hvalid]
  | ok c =>
      have husable := (nameProblem?_eq_none_iff_usable c.name).mp
        (Payload.wellFormed_of_validate hvalid).name_usable
      refine (holds_saveConfig h hfaults husable).mono ?_
      rintro _ w' ⟨rfl, hrest⟩
      refine ⟨?_, hrest⟩
      rw [expected, hvalid]

/-- Every request is answered from the map, which it changes when it saves something valid only. -/
theorem holds_answer (h : Holds settings saves w.disk) (hfaults : Faultless w) (request : Request) :
    After (answer settings request) w fun a w' =>
      a = expected settings saves w.clock request ∧
        (∃ calls, Makes w calls w' ∧ ∀ c, request.config? = some c →
          calls.filterMap Call.replaced? =
            (projectFiles settings c).map (filePath (projectFolder settings c.name))) ∧
        match request.config? with
        | none => w'.disk = w.disk
        | some c => Holds settings (store saves c) w'.disk := by
  cases request with
  | load name =>
      refine (holds_load h hfaults name).mono ?_
      rintro a w' ⟨ha, hdisk, calls, hmakes⟩
      exact ⟨ha, ⟨calls, hmakes, fun _ hc => by cases hc⟩, hdisk⟩
  | save payload =>
      refine (holds_save h hfaults payload).mono ?_
      rintro a w' ⟨ha, hresult⟩
      refine ⟨ha, ?_⟩
      rw [Request.config?]
      cases hvalid : payload.validate with
      | error violations =>
          rw [hvalid] at hresult
          refine ⟨⟨[], hresult ▸ Makes.refl w, fun _ hc => by cases hc⟩, ?_⟩
          exact congrArg World.disk hresult
      | ok c =>
          rw [hvalid] at hresult
          obtain ⟨hholds, calls, hmakes, hreplaced⟩ := hresult
          refine ⟨⟨calls, hmakes, fun c' hc' => ?_⟩, hholds⟩
          obtain rfl := Option.some.inj hc'
          exact hreplaced

end Step

/-! ## Sessions -/

section Run

variable {settings : Settings} {w : World}

/-- A session answers its last request after all others. -/
theorem session_concat (settings : Settings) (requests : List Request) (request : Request)
    (w : World) :
    session settings (requests ++ [request]) w =
      (answer settings request (session settings requests w)).2 := by
  unfold session
  rw [List.foldl_concat]

/-- Between two requests of a session the disk holds what was saved. -/
theorem holds_session (hfaults : Faultless w) (hempty : EmptyWorkspace settings w.disk)
    (hroot : ∀ l, InProject settings w.disk l → ¬UpFromMissing w.disk (workspace settings) l)
    (requests : List Request) :
    Holds settings (lastSaved requests) (session settings requests w).disk ∧
      Faultless (session settings requests w) ∧ (session settings requests w).clock = w.clock := by
  induction requests using List.reverseRecOn with
  | nil => exact ⟨hempty.holds hroot, hfaults, rfl⟩
  | append_singleton requests request ih =>
      obtain ⟨hholds, hfaults', hclock⟩ := ih
      obtain ⟨-, ⟨calls, hmakes, -⟩, hresult⟩ := holds_answer hholds hfaults' request
      rw [session_concat]
      refine ⟨?_, hfaults'.of_faults_eq hmakes.faults, hmakes.clock.trans hclock⟩
      have hlast := funext (lastSaved_concat requests request)
      rw [hlast]
      cases hconfig : request.config? with
      | none =>
          rw [hconfig] at hresult
          rw [hresult]
          exact hholds
      | some c =>
          rw [hconfig] at hresult
          exact hresult

/-- What the clients of a store can find on the disk: the files and directories of the saved
projects, and no temporary file. -/
structure Reflects (settings : Settings) (saves : String → Option Config) (d : Disk) : Prop where
  files : ∀ name c, saves name = some c → ∀ f ∈ projectFiles settings c,
    d.read (filePath (projectFolder settings name) f) = .ok f.content
  directories : ∀ name c, saves name = some c → ∀ directory ∈ subdirectories,
    d.isDirectory ((projectFolder settings name).child directory) = true
  lasting : ∀ l content, Below settings d l → d.at? l = some (.file content) →
    ∀ name tag, l.getLast? ≠ some (temporaryName name tag)

/-- A workspace that holds what was saved answers as the last saves do. -/
theorem Holds.reflects {saves : String → Option Config} {d : Disk} (h : Holds settings saves d) :
    Reflects settings saves d where
  files := fun name c hc f hf => read_of_find (h.files name c hc f hf)
  directories := fun name c hc directory hdirectory =>
    (h.directories name c hc directory hdirectory).isDirectory
  lasting := fun _ _ hbelow hat name tag => h.ne_temporaryName hbelow hat name tag

/-- A session that starts with an empty workspace answers every request as the map of the
configurations that were saved last does, and its disk reflects the map at any time. What saves
nothing leaves the disk as it is, and a save replaces its files in the order of its answer. The root
of the workspace must not lead up from a missing place in the folder of a project, which the first
save would make. -/
theorem answer_session (hfaults : Faultless w) (hempty : EmptyWorkspace settings w.disk)
    (hroot : ∀ l, InProject settings w.disk l → ¬UpFromMissing w.disk (workspace settings) l)
    (before : List Request) (request : Request) :
    After (answer settings request) (session settings before w) fun a w' =>
      a = expected settings (lastSaved before) w.clock request ∧
        Reflects settings (lastSaved (before ++ [request])) w'.disk ∧
        (request.config? = none → w'.disk = (session settings before w).disk) ∧
        ∀ c, request.config? = some c → ∃ calls, Makes (session settings before w) calls w' ∧
          calls.filterMap Call.replaced? =
            (projectFiles settings c).map (filePath (projectFolder settings c.name)) := by
  obtain ⟨hholds, hfaults', hclock⟩ := holds_session hfaults hempty hroot before
  obtain ⟨hafter, -, -⟩ := holds_session hfaults hempty hroot (before ++ [request])
  rw [session_concat] at hafter
  obtain ⟨hanswer, ⟨calls, hmakes, hreplaced⟩, hresult⟩ := holds_answer hholds hfaults' request
  rw [hclock] at hanswer
  refine ⟨hanswer, hafter.reflects, fun hnone => ?_, fun c hc => ⟨calls, hmakes, hreplaced c hc⟩⟩
  rw [hnone] at hresult
  exact hresult

end Run

/-- A world in which the workspace is an empty directory. -/
def emptyDirectory : World where
  disk := { objects := [(["ws"], .directory)] }

theorem isDirectory_emptyDirectory :
    emptyDirectory.disk.isDirectory (workspace shortSettings) = true := by
  decide

theorem emptyWorkspace_emptyDirectory : EmptyWorkspace shortSettings emptyDirectory.disk := by
  refine emptyWorkspace_of_isDirectory isDirectory_emptyDirectory ?_
  rintro l ⟨name, rest, rfl⟩
  have hroot : emptyDirectory.disk.place (workspace shortSettings) = ["ws"] := by decide
  rw [hroot]
  simp [at?, emptyDirectory]

/-- The second save of a project is reported as an update, with another request in between. -/
theorem answer_session_saved_again :
    EmptyWorkspace shortSettings emptyDirectory.disk ∧
      (answer shortSettings (.save Dag.threeTasks)
        (session shortSettings [.save Dag.threeTasks, .load "beta"] emptyDirectory)).1 =
          .saved (.ok ⟨.updated, shortSettings.projectDir Dag.threeTasks.toConfig.name,
            (projectFiles shortSettings Dag.threeTasks.toConfig).map ProjectFile.pathText,
            ⟨0, 0⟩⟩) := by
  have hvalid : Dag.threeTasks.validate = .ok Dag.threeTasks.toConfig := by rfl
  have hsaved : lastSaved [.save Dag.threeTasks, .load "beta"] Dag.threeTasks.toConfig.name =
      some Dag.threeTasks.toConfig := by rfl
  obtain ⟨hanswer, -⟩ := answer_session (fun _ _ => rfl) emptyWorkspace_emptyDirectory
    (fun l _ => not_upFromMissing_of_isDirectory isDirectory_emptyDirectory l)
    [.save Dag.threeTasks, .load "beta"] (.save Dag.threeTasks)
  rw [expected, hvalid] at hanswer
  dsimp only at hanswer
  rw [hsaved] at hanswer
  exact ⟨emptyWorkspace_emptyDirectory, hanswer⟩

/-- Where nothing is the workspace is empty, whatever its root. -/
theorem emptyWorkspace_nowhere (settings : Settings) : EmptyWorkspace settings nowhere.disk where
  start := by
    rw [start]
    split_ifs <;> rfl
  way := fun l _ => by
    by_cases hl : l = []
    · rw [hl]
      exact Or.inl rfl
    · exact Or.inr (if_neg hl)
  empty := by
    rintro l ⟨name, rest, rfl⟩
    exact if_neg (by simp)

/-- A save into an empty workspace can fail: when the root leads up from the place of a file of the
project, the directory that is made there is in the way of the file. -/
theorem not_forall_answer_eq_expected :
    ¬∀ (settings : Settings) (w : World) (before : List Request) (request : Request),
      Faultless w → EmptyWorkspace settings w.disk →
        (answer settings request (session settings before w)).1 =
          expected settings (lastSaved before) w.clock request := by
  intro h
  have hvalid : Dag.threeTasks.validate = .ok Dag.threeTasks.toConfig := by rfl
  have hanswer := h detourSettings nowhere [] (.save Dag.threeTasks) (fun _ _ => rfl)
    (emptyWorkspace_nowhere detourSettings)
  have hrun : After (answer detourSettings (.save Dag.threeTasks)) nowhere fun a _ =>
      a = .saved detourSave.1 := by
    refine After.map ?_
    rw [save, hvalid]
    exact congrArg (fun outcome => Answer.saved outcome.1) (rfl : _ = detourSave)
  have hstart : session detourSettings [] nowhere = nowhere := rfl
  rw [After] at hrun
  rw [hstart, hrun, expected, hvalid] at hanswer
  have hfailed := isOk_detourSave
  rw [Answer.saved.inj hanswer] at hfailed
  cases hfailed

end DagScaffold.Store
