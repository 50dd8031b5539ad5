import Mathlib
import DagScaffold.Artifacts
import DagScaffold.Proofs.Files.Runs

/-!
# Where the files of a project are

The files of a project have paths of their own in its folder: no two are the same, none is on the
way to another one, and none is that of a temporary file.

* `place_descend`, `place_temporaryPath` : the places of a file and of its temporary file;
* `Apart`, `apart_projectFiles` : files that do not get in each other's way;
* `not_prefix_directories` : files and directories of a project.
-/

namespace DagScaffold.Store

open DagScaffold.Files

open Disk World

/-! ## Places of files -/

/-- The path of an entry that is reached by names has these names at its end. -/
theorem descend_parts (p : Path) (names : List String) :
    (p.descend names).parts = p.parts ++ names.map .entry ∧
      (p.descend names).absolute = p.absolute := by
  induction names generalizing p with
  | nil => exact ⟨(List.append_nil _).symm, rfl⟩
  | cons name names ih =>
      obtain ⟨hparts, habsolute⟩ := ih (p.child name)
      refine ⟨?_, habsolute⟩
      rw [List.map_cons]
      show ((p.child name).descend names).parts = _
      rw [hparts, Path.child, List.append_assoc, List.singleton_append]

/-- A path that ends with a name can name a file. -/
theorem descend_directoryOnly (p : Path) {names : List String} (h : names ≠ []) :
    (p.descend names).directoryOnly = false := by
  obtain ⟨front, last, rfl⟩ := (List.eq_nil_or_concat' names).resolve_left h
  rw [Path.descend, List.foldl_append]
  rfl

/-- An entry that is reached by names is at the place with these names. -/
theorem place_descend (d : Disk) (p : Path) (names : List String) :
    d.place (p.descend names) = d.place p ++ names := by
  obtain ⟨hparts, habsolute⟩ := descend_parts p names
  rw [place, place, start, start, habsolute, hparts, placeFrom_append, placeFrom_entries]

/-- The way to an entry in a directory leads over the way to the directory and places in it. -/
theorem onTheWay_descend {d : Disk} {p : Path} {names : List String} {l : Location}
    (h : OnTheWay d (p.descend names) l) :
    OnTheWay d p l ∨ ∃ front, front <+: names ∧ l = d.place p ++ front := by
  obtain ⟨parts, hparts, rfl⟩ := h
  obtain ⟨hdescend, habsolute⟩ := descend_parts p names
  have hstart : d.start (p.descend names) = d.start p := by rw [start, start, habsolute]
  rw [hdescend] at hparts
  rw [hstart]
  rcases List.prefix_or_prefix_of_prefix hparts (List.prefix_append _ _) with hfront | ⟨rest, rfl⟩
  · exact Or.inl ⟨parts, hfront, rfl⟩
  · rw [List.prefix_append_right_inj, List.prefix_map_iff] at hparts
    obtain ⟨front, hfront, rfl⟩ := hparts
    refine Or.inr ⟨front, hfront, ?_⟩
    rw [place, placeFrom_append, placeFrom_entries]

/-- The names of the temporary file that is to become a file, with the given number in the last
one. -/
def temporaryNames (path : List String) (n : Nat) : List String :=
  path.dropLast ++ [temporaryName (path.getLast?.getD "") (toString n)]

/-- A temporary file is beside its file. -/
theorem place_temporaryPath (d : Disk) (p : Path) {path : List String} (h : path ≠ []) (n : Nat) :
    d.place (temporaryPath (p.descend path) n) = d.place p ++ temporaryNames path n := by
  obtain ⟨front, last, rfl⟩ := (List.eq_nil_or_concat' path).resolve_left h
  obtain ⟨hparts, habsolute⟩ := descend_parts p (front ++ [last])
  have hname : (p.descend (front ++ [last])).name = last := by
    rw [Path.name, hparts, List.map_append, ← List.append_assoc]
    simp
  have hsibling : (temporaryPath (p.descend (front ++ [last])) n).parts =
      p.parts ++ (temporaryNames (front ++ [last]) n).map .entry := by
    rw [temporaryPath, hname]
    simp [Path.sibling, Path.parent, Path.child, hparts, temporaryNames]
  rw [place, place, start, start, hsibling, placeFrom_append, placeFrom_entries]
  show placeFrom (if (p.descend (front ++ [last])).absolute then _ else _) _ ++ _ = _
  rw [habsolute]

/-! ## Files that do not get in each other's way -/

/-- Files of one folder that are apart from each other and from the temporary files. -/
structure Apart (files : List ProjectFile) : Prop where
  named : ∀ f ∈ files, f.path ≠ []
  distinct : (files.map ProjectFile.path).Nodup
  lasting : ∀ f ∈ files, ∀ f' ∈ files, ∀ n, f.path ≠ temporaryNames f'.path n

/-- The path of a file in the folder of its project. -/
def filePath (root : Path) (f : ProjectFile) : Path :=
  root.descend f.path

/-- A file of a project is in the folder of the project. -/
theorem place_filePath (d : Disk) (root : Path) (f : ProjectFile) :
    d.place (filePath root f) = d.place root ++ f.path :=
  place_descend d root f.path

/-! ## The files of a project -/

/-- The paths of files that do not depend on the project, but for that of the manifest. -/
def fixedPaths : List (List String) :=
  [TaskModule.path, ["src", "__init__.py"], ["README.md"], [".gitignore"],
    [".cicd", "pipeline.cicd.yaml"], ["airflow-python-311.txt"], ["BUNDLE_AIRFLOW.txt"],
    ["airflow.cfg"]]

/-- The paths that files of a project may have. -/
def paths (config : Config) : List (List String) :=
  [Manifest.fileName] :: [config.dagFile] :: fixedPaths

/-- The directories that a project has or that hold files of it. -/
def directories : List (List String) :=
  [[], ["src"], ["tests"], [".cicd"]]

/-- The first character of the first of some names. -/
def firstChar? (names : List String) : Option Char :=
  names.head?.bind fun name => name.toList.head?

/-- The last character of the last of some names. -/
def lastChar? (names : List String) : Option Char :=
  names.getLast?.bind fun name => name.toList.getLast?

/-- The name of a DAG file starts with a letter of its own. -/
theorem firstChar?_dagFile (config : Config) (names : List String) :
    firstChar? (config.dagFile :: names) = some 'd' := by
  simp [firstChar?, Config.dagFile]

/-- The name of a DAG file does not end as that of a temporary file does. -/
theorem lastChar?_dagFile (config : Config) : lastChar? [config.dagFile] = some 'y' := by
  show config.dagFile.toList.getLast? = some 'y'
  have hchars : config.dagFile.toList = "dag_".toList ++ config.name.toList ++ ".p".toList ++
      ['y'] := by
    simp [Config.dagFile]
  rw [hchars, List.getLast?_concat]

/-- The names of temporary files have an ending of their own. -/
theorem getLast?_temporaryName (name tag : String) :
    (temporaryName name tag).toList.getLast? = some 'p' := by
  have hchars : (temporaryName name tag).toList =
      ".".toList ++ name.toList ++ ".".toList ++ tag.toList ++ ".tm".toList ++ ['p'] := by
    simp [temporaryName]
  rw [hchars, List.getLast?_concat]

/-- The names of a temporary file end with a letter of their own. -/
theorem lastChar?_temporaryNames (front path : List String) (n : Nat) :
    lastChar? (front ++ temporaryNames path n) = some 'p' := by
  rw [temporaryNames, ← List.append_assoc, lastChar?, List.getLast?_concat, Option.bind_some,
    getLast?_temporaryName]

/-- What a path of a project's file satisfies as soon as the one of the DAG and the others do. -/
theorem forall_mem_paths {P : List String → Prop} {config : Config} (hdag : P [config.dagFile])
    (hfixed : ∀ path ∈ [Manifest.fileName] :: fixedPaths, P path) :
    ∀ path ∈ paths config, P path := by
  obtain ⟨hmanifest, hrest⟩ := List.forall_mem_cons.mp hfixed
  exact List.forall_mem_cons.mpr ⟨hmanifest, List.forall_mem_cons.mpr ⟨hdag, hrest⟩⟩

/-- No path stands twice among those that files of a project may have. -/
theorem nodup_paths (config : Config) : (paths config).Nodup := by
  have hhead : ∀ path ∈ [Manifest.fileName] :: fixedPaths, path ≠ [config.dagFile] := by
    have hfixed : ∀ path ∈ [Manifest.fileName] :: fixedPaths, firstChar? path ≠ some 'd' := by
      decide
    rintro path hpath rfl
    exact hfixed _ hpath (firstChar?_dagFile config [])
  obtain ⟨hmanifest, hrest⟩ := List.forall_mem_cons.mp hhead
  refine List.nodup_cons.mpr ⟨?_, List.nodup_cons.mpr ⟨fun hmem => hrest _ hmem rfl, by decide⟩⟩
  rw [List.mem_cons, not_or]
  exact ⟨hmanifest, by decide⟩

/-- The files of a project have some of these paths, in their order. -/
theorem sublist_paths (settings : Settings) (config : Config) :
    ((projectFiles settings config).map ProjectFile.path).Sublist (paths config) := by
  have henvironment : ((Companion.environmentFiles config).map ProjectFile.path).Sublist
      [["airflow-python-311.txt"], ["BUNDLE_AIRFLOW.txt"]] := by
    unfold Companion.environmentFiles
    split_ifs
    · exact List.Sublist.cons_cons _ (List.nil_sublist _)
    · exact List.Sublist.cons _ (List.Sublist.refl _)
    · exact List.nil_sublist _
  have htests : ((if config.prepareTests then
      [(⟨["airflow.cfg"], Companion.testConfiguration⟩ : ProjectFile)] else []).map
        ProjectFile.path).Sublist [["airflow.cfg"]] := by
    split_ifs
    · exact List.Sublist.refl _
    · exact List.nil_sublist _
  have hcompanion : ((Companion.files config).map ProjectFile.path).Sublist fixedPaths.tail := by
    rw [Companion.files, List.map_append, List.map_append]
    exact ((List.Sublist.refl _).append henvironment).append htests
  exact ((hcompanion.cons_cons _).cons_cons _).cons_cons _

theorem path_mem_paths {settings : Settings} {config : Config} {f : ProjectFile}
    (hf : f ∈ projectFiles settings config) : f.path ∈ paths config :=
  (sublist_paths settings config).subset (List.mem_map_of_mem hf)

/-- No path of a project's file ends as those of temporary files do. -/
theorem lastChar?_of_mem_paths {config : Config} {path : List String}
    (hpath : path ∈ paths config) :
    lastChar? path ≠ some 'p' := by
  have hall : ∀ path ∈ paths config, lastChar? path ≠ some 'p' := by
    refine forall_mem_paths ?_ (by decide)
    rw [lastChar?_dagFile]
    decide
  exact hall path hpath

/-- The files of a project do not get in each other's way. -/
theorem apart_projectFiles (settings : Settings) (config : Config) :
    Apart (projectFiles settings config) := by
  have hnamed : ∀ path ∈ paths config, path ≠ [] :=
    forall_mem_paths (List.cons_ne_nil _ _) (by decide)
  refine ⟨fun f hf => hnamed _ (path_mem_paths hf),
    (nodup_paths config).sublist (sublist_paths settings config), ?_⟩
  intro f hf f' _ n heq
  refine lastChar?_of_mem_paths (path_mem_paths hf) ?_
  rw [heq]
  exact lastChar?_temporaryNames [] _ _

/-- Temporary files have their places to themselves where no name has their ending. -/
theorem at?_temporaryPath_eq_none {d : Disk}
    (h : ∀ entry ∈ d.objects, lastChar? entry.1 ≠ some 'p') {settings : Settings}
    {config : Config} {f : ProjectFile} (hf : f ∈ projectFiles settings config) (root : Path)
    (n : Nat) : d.at? (d.place (temporaryPath (filePath root f) n)) = none := by
  rw [filePath, place_temporaryPath _ _ ((apart_projectFiles settings config).named f hf)]
  have hlast := lastChar?_temporaryNames (d.place root) f.path n
  have hnil : d.place root ++ temporaryNames f.path n ≠ [] := by
    intro hnil
    rw [hnil] at hlast
    cases hlast
  rw [at?, if_neg hnil, List.lookup_eq_none_iff]
  intro entry hentry
  refine bne_iff_ne.mpr fun heq => h entry hentry ?_
  rw [← heq, hlast]

/-- No path of a project's file is on the way to a directory of the project. -/
theorem not_prefix_of_mem_paths {config : Config} {path directory : List String}
    (hpath : path ∈ paths config) (hdirectory : directory ∈ directories) : ¬path <+: directory := by
  have hall : ∀ path ∈ paths config, ∀ directory ∈ directories, ¬path <+: directory := by
    refine forall_mem_paths ?_ (by decide)
    have hfirst : ∀ directory ∈ directories, firstChar? directory ≠ some 'd' := by decide
    rintro directory hdirectory ⟨rest, rfl⟩
    exact hfirst _ hdirectory (firstChar?_dagFile config rest)
  exact hall path hpath directory hdirectory

/-- No file of a project is on the way to a directory of the project. -/
theorem not_prefix_directories {settings : Settings} {config : Config} {f : ProjectFile}
    (hf : f ∈ projectFiles settings config) {directory : List String}
    (hdirectory : directory ∈ directories) : ¬f.path <+: directory :=
  not_prefix_of_mem_paths (path_mem_paths hf) hdirectory

/-- Every file of a project is in a directory of the project. -/
theorem dropLast_mem_directories {settings : Settings} {config : Config} {f : ProjectFile}
    (hf : f ∈ projectFiles settings config) : f.path.dropLast ∈ directories := by
  have hall : ∀ path ∈ paths config, path.dropLast ∈ directories :=
    forall_mem_paths (List.mem_cons_self) (by decide)
  exact hall _ (path_mem_paths hf)

end DagScaffold.Store
