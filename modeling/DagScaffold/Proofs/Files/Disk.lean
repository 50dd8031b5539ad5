import Mathlib
import DagScaffold.Files.Disk

/-!
# What the operations on a disk change

Every operation that succeeds changes one place, or two when it moves a file, and says what was
there before. Where a path leads is known from its parts alone.

* `placeFrom`, `Disk.place` : where a path leads;
* `exists_above_of_placeFrom` : a way out of a directory leads up from it;
* `Disk.ChangedAt`, `Disk.Grown` : a change of one place, and a change by new directories only;
* `Disk.changedAt_of_write_rename`, `Disk.exists_remove_of_write` : a file that is made beside
  another one;
* `Disk.find_of_keepsDirectories` : what is still found later;
* `Disk.content?` : what a file holds.
-/

namespace DagScaffold.Files

/-! ## Where a path leads -/

/-- The place that the parts of a path lead to from another place, whatever stands on the way. -/
def placeFrom : Location → List Part → Location
  | l, [] => l
  | l, .entry name :: parts => placeFrom (l ++ [name]) parts
  | l, .above :: parts => placeFrom l.dropLast parts

/-- A way is gone part after part. -/
theorem placeFrom_append (l : Location) (front back : List Part) :
    placeFrom l (front ++ back) = placeFrom (placeFrom l front) back := by
  induction front generalizing l with
  | nil => rfl
  | cons part front ih =>
      cases part with
      | entry name => exact ih (l ++ [name])
      | above => exact ih l.dropLast

theorem placeFrom_cons (l : Location) (part : Part) (parts : List Part) :
    placeFrom l (part :: parts) = placeFrom (placeFrom l [part]) parts :=
  placeFrom_append l [part] parts

/-- A way of names leads down by these names. -/
theorem placeFrom_entries (l : Location) (names : List String) :
    placeFrom l (names.map .entry) = l ++ names := by
  induction names generalizing l with
  | nil => exact (List.append_nil l).symm
  | cons name names ih =>
      rw [List.map_cons, placeFrom, ih, List.append_assoc, List.singleton_append]

/-- A way from a place in some directory, or from the directory itself, to a place that is not in it
leads up from the directory. -/
theorem exists_above_of_placeFrom {l m : Location} {parts : List Part} (hin : l <+: m)
    (hout : ¬l <+: placeFrom m parts) :
    ∃ front, front ++ [.above] <+: parts ∧ placeFrom m front = l := by
  induction parts generalizing m with
  | nil => exact absurd hin hout
  | cons part parts ih =>
      -- as long as the way stays in the directory the rest of it leads up from there
      have hrest (hstays : l <+: placeFrom m [part]) :
          ∃ front, front ++ [.above] <+: part :: parts ∧ placeFrom m front = l := by
        rw [placeFrom_cons] at hout
        obtain ⟨front, hfront, hplace⟩ := ih hstays hout
        refine ⟨part :: front, List.cons_prefix_cons.mpr ⟨rfl, hfront⟩, ?_⟩
        rw [placeFrom_cons, hplace]
      cases part with
      | entry name => exact hrest (hin.trans (List.prefix_append m [name]))
      | above =>
          obtain ⟨inner, rfl⟩ := hin
          by_cases hinner : inner = []
          · refine ⟨[], List.cons_prefix_cons.mpr ⟨rfl, List.nil_prefix⟩, ?_⟩
            rw [hinner, List.append_nil]
            rfl
          · apply hrest
            change l <+: (l ++ inner).dropLast
            rw [List.dropLast_append_of_ne_nil hinner]
            exact List.prefix_append l _

namespace Disk

/-- The place from which a path starts. -/
def start (d : Disk) (p : Path) : Location :=
  if p.absolute then [] else d.workingDirectory

/-- The place that a path leads to, whatever stands on the way. -/
def place (d : Disk) (p : Path) : Location :=
  placeFrom (d.start p) p.parts

/-- A place passes the check when a directory is there. -/
theorem requireDirectory_eq_ok_iff {d : Disk} {l : Location} :
    d.requireDirectory l = .ok () ↔ d.at? l = some .directory := by
  unfold requireDirectory
  cases d.at? l with
  | none => simp
  | some o => cases o <;> simp

/-- A walk looks for a directory before every part of its way. -/
theorem walk_cons (d : Disk) (l : Location) (part : Part) (parts : List Part) :
    d.walk l (part :: parts) =
      (d.requireDirectory l).bind fun _ => d.walk (placeFrom l [part]) parts := by
  cases part <;> rfl

/-- A walk goes from directory to directory. -/
theorem walk_cons_eq_ok_iff {d : Disk} {l r : Location} {part : Part} {parts : List Part} :
    d.walk l (part :: parts) = .ok r ↔
      d.at? l = some .directory ∧ d.walk (placeFrom l [part]) parts = .ok r := by
  rw [walk_cons, ← requireDirectory_eq_ok_iff]
  cases d.requireDirectory l with
  | error e => simp [Except.bind]
  | ok u => simp [Except.bind]

/-- A walk that succeeds ends where the parts of its way lead. -/
theorem eq_placeFrom_of_walk {d : Disk} {l r : Location} {parts : List Part}
    (h : d.walk l parts = .ok r) : r = placeFrom l parts := by
  induction parts generalizing l with
  | nil => exact (Except.ok.inj h).symm
  | cons part parts ih =>
      rw [← List.singleton_append, placeFrom_append]
      exact ih (walk_cons_eq_ok_iff.mp h).2

/-- A walk of two ways is a walk of the second one from the end of the first one. -/
theorem walk_append (d : Disk) (l : Location) (front back : List Part) :
    d.walk l (front ++ back) = (d.walk l front).bind fun r => d.walk r back := by
  induction front generalizing l with
  | nil => rfl
  | cons part front ih =>
      rw [List.cons_append, walk_cons, walk_cons, ih]
      cases d.requireDirectory l <;> rfl

/-- A walk succeeds when every place from which it goes on is a directory. -/
theorem walk_eq_ok_iff {d : Disk} {l : Location} {parts : List Part} :
    d.walk l parts = .ok (placeFrom l parts) ↔
      ∀ front part, front ++ [part] <+: parts → d.at? (placeFrom l front) = some .directory := by
  induction parts generalizing l with
  | nil =>
      refine ⟨fun _ front part h => ?_, fun _ => rfl⟩
      cases front <;> cases List.prefix_nil.mp h
  | cons part parts ih =>
      rw [walk_cons_eq_ok_iff, placeFrom_cons l part parts, ih]
      constructor
      · rintro ⟨hfirst, hrest⟩ front last h
        cases front with
        | nil => exact hfirst
        | cons a front =>
            obtain ⟨rfl, hfront⟩ := List.cons_prefix_cons.mp h
            rw [placeFrom_cons]
            exact hrest front last hfront
      · intro h
        refine ⟨h [] part (List.cons_prefix_cons.mpr ⟨rfl, List.nil_prefix⟩),
          fun front last hlast => ?_⟩
        rw [← placeFrom_cons]
        exact h (part :: front) last (List.cons_prefix_cons.mpr ⟨rfl, hlast⟩)

/-- A path is located where it leads. -/
theorem eq_place_of_locate {d : Disk} {p : Path} {l : Location} (h : d.locate p = .ok l) :
    l = d.place p :=
  eq_placeFrom_of_walk h

/-- What is found at a path is at its place, to which a walk succeeds, and it is a directory if the
path can only name one. -/
theorem find_eq_ok {d : Disk} {p : Path} {l : Location} {o : Object} (h : d.find p = .ok (l, o)) :
    d.locate p = .ok l ∧ l = d.place p ∧ d.at? l = some o ∧
      (o = .directory ∨ p.directoryOnly = false) := by
  unfold find at h
  cases hlocate : d.locate p with
  | error e =>
      rw [hlocate] at h
      cases h
  | ok r =>
      rw [hlocate, Except.bind] at h
      have hplace := eq_place_of_locate hlocate
      cases hat : d.at? r with
      | none =>
          rw [hat] at h
          cases h
      | some found =>
          rw [hat] at h
          cases found with
          | directory =>
              obtain ⟨rfl, rfl⟩ := Prod.mk.inj (Except.ok.inj h)
              exact ⟨rfl, hplace, hat, Or.inl rfl⟩
          | file content =>
              dsimp only at h
              split_ifs at h with hslash
              obtain ⟨rfl, rfl⟩ := Prod.mk.inj (Except.ok.inj h)
              exact ⟨rfl, hplace, hat, Or.inr (by simpa using hslash)⟩

/-! ## Changes -/

theorem at?_nil (d : Disk) : d.at? [] = some .directory :=
  if_pos rfl

/-- A disk that differs from another one at one place. -/
structure ChangedAt (d d' : Disk) (l : Location) (o : Option Object) : Prop where
  workingDirectory : d'.workingDirectory = d.workingDirectory
  objects : ∀ l', d'.at? l' = if l' = l then o else d.at? l'

/-- Without the entries of one place a list of objects says the same of all other places. -/
theorem lookup_filter_ne (objects : List (Location × Object)) (l l' : Location) :
    (objects.filter (·.1 ≠ l)).lookup l' = if l' = l then none else objects.lookup l' := by
  induction objects with
  | nil => simp
  | cons entry objects ih =>
      obtain ⟨k, o⟩ := entry
      by_cases hk : k = l
      · rw [List.filter_cons_of_neg (by simpa using hk), ih, List.lookup_cons]
        split_ifs with hl
        · rfl
        · have hne : (l' == k) = false := by
            rw [hk]
            simpa using hl
          rw [hne]
      · rw [List.filter_cons_of_pos (by simpa using hk), List.lookup_cons, List.lookup_cons, ih]
        split_ifs with hl
        · have hne : (l' == k) = false := by
            rw [hl]
            simpa using Ne.symm hk
          rw [hne]
        · rfl

/-- Putting an object at a place changes that place only. -/
theorem changedAt_put (d : Disk) {l : Location} (hl : l ≠ []) (o : Object) :
    ChangedAt d (d.put l o) l (some o) := by
  refine ⟨rfl, fun l' => ?_⟩
  simp only [at?, put, List.lookup_cons, lookup_filter_ne]
  by_cases hroot : l' = []
  · rw [if_pos hroot, if_pos hroot, if_neg]
    rw [hroot]
    exact hl.symm
  · rw [if_neg hroot, if_neg hroot]
    by_cases hsame : l' = l
    · simp [hsame]
    · have hkey : (l' == l) = false := by simpa using hsame
      simp [hsame, hkey]

/-- Erasing a place changes that place only. -/
theorem changedAt_erase (d : Disk) {l : Location} (hl : l ≠ []) :
    ChangedAt d (d.erase l) l none := by
  refine ⟨rfl, fun l' => ?_⟩
  simp only [at?, erase, lookup_filter_ne]
  by_cases hroot : l' = []
  · rw [if_pos hroot, if_pos hroot, if_neg]
    rw [hroot]
    exact hl.symm
  · rw [if_neg hroot, if_neg hroot]

/-- What is not a directory is not at the root. -/
theorem ne_nil_of_at? {d : Disk} {l : Location} (h : d.at? l ≠ some .directory) : l ≠ [] := by
  rintro rfl
  exact h d.at?_nil

/-- A disk on which no directory of another one is missing. -/
def KeepsDirectories (d d' : Disk) : Prop :=
  ∀ l, d.at? l = some .directory → d'.at? l = some .directory

/-- A change of a place without a directory takes no directory away. -/
theorem ChangedAt.keepsDirectories {d d' : Disk} {l : Location} {o : Option Object}
    (h : ChangedAt d d' l o) (hl : d.at? l ≠ some .directory) : KeepsDirectories d d' := by
  intro l' hl'
  have hne : l' ≠ l := by
    rintro rfl
    exact hl hl'
  rw [h.objects, if_neg hne, hl']

/-- A walk succeeds as long as no directory goes away. -/
theorem walk_of_keepsDirectories {d d' : Disk} (h : KeepsDirectories d d') {l r : Location}
    {parts : List Part} (hwalk : d.walk l parts = .ok r) : d'.walk l parts = .ok r := by
  induction parts generalizing l with
  | nil => exact hwalk
  | cons part parts ih =>
      obtain ⟨hdirectory, hrest⟩ := walk_cons_eq_ok_iff.mp hwalk
      exact walk_cons_eq_ok_iff.mpr ⟨h l hdirectory, ih hrest⟩

theorem place_congr {d d' : Disk} (h : d'.workingDirectory = d.workingDirectory) (p : Path) :
    d'.place p = d.place p := by
  rw [place, place, start, start, h]

/-- A path is located at the same place as long as no directory goes away. -/
theorem locate_of_keepsDirectories {d d' : Disk} (h : KeepsDirectories d d')
    (hstart : d'.workingDirectory = d.workingDirectory) {p : Path} {l : Location}
    (hlocate : d.locate p = .ok l) : d'.locate p = .ok l := by
  rw [locate, hstart]
  exact walk_of_keepsDirectories h hlocate

/-- What is found at a path is found there as long as its place stays and no directory goes away. -/
theorem find_of_keepsDirectories {d d' : Disk} (h : KeepsDirectories d d')
    (hstart : d'.workingDirectory = d.workingDirectory) {p : Path} {l : Location} {o : Object}
    (hfind : d.find p = .ok (l, o)) (hplace : d'.at? l = some o) : d'.find p = .ok (l, o) := by
  obtain ⟨hlocate, -, -, hslash⟩ := find_eq_ok hfind
  rw [find, locate_of_keepsDirectories h hstart hlocate, Except.bind]
  rw [hplace]
  rcases hslash with rfl | hslash
  · rfl
  · cases o with
    | directory => rfl
    | file content => simp [hslash]

/-! ## Operations -/

/-- A directory is made where nothing was, and nothing else changes. -/
theorem changedAt_of_makeDirectory {d d' : Disk} {p : Path} (h : d.makeDirectory p = .ok d') :
    d.at? (d.place p) = none ∧ ChangedAt d d' (d.place p) (some .directory) := by
  unfold makeDirectory at h
  cases hlocate : d.locate p with
  | error e =>
      rw [hlocate] at h
      cases h
  | ok l =>
      rw [hlocate, Except.bind] at h
      rw [← eq_place_of_locate hlocate]
      cases hat : d.at? l with
      | some o =>
          rw [hat] at h
          cases h
      | none =>
          rw [hat] at h
          obtain rfl := Except.ok.inj h
          exact ⟨rfl, changedAt_put d (ne_nil_of_at? (d := d) (by simp [hat])) .directory⟩

/-- A file is written at a place without a directory, and nothing else changes. -/
theorem changedAt_of_write {d d' : Disk} {p : Path} {content : Content}
    (h : d.write p content = .ok d') :
    d.at? (d.place p) ≠ some .directory ∧ ChangedAt d d' (d.place p) (some (.file content)) ∧
      d.locate p = .ok (d.place p) ∧ p.directoryOnly = false := by
  unfold write at h
  cases hlocate : d.locate p with
  | error e =>
      rw [hlocate] at h
      cases h
  | ok l =>
      rw [hlocate, Except.bind] at h
      rw [← eq_place_of_locate hlocate]
      have hfile : d.at? l ≠ some .directory ∧ p.directoryOnly = false ∧
          d.put l (.file content) = d' := by
        cases hat : d.at? l with
        | none =>
            rw [hat] at h
            dsimp only at h
            split_ifs at h with hslash
            exact ⟨by simp, by simpa using hslash, Except.ok.inj h⟩
        | some o =>
            rw [hat] at h
            cases o with
            | directory => cases h
            | file old =>
                dsimp only at h
                split_ifs at h with hslash
                exact ⟨by simp, by simpa using hslash, Except.ok.inj h⟩
      obtain ⟨hat, hslash, rfl⟩ := hfile
      exact ⟨hat, changedAt_put d (ne_nil_of_at? hat) _, rfl, hslash⟩

/-- A file that is moved leaves its place and takes another one, at which no directory is. -/
theorem exists_of_rename {d d' : Disk} {source target : Path}
    (h : d.rename source target = .ok d') :
    ∃ content between, d.at? (d.place source) = some (.file content) ∧
      d.at? (d.place target) ≠ some .directory ∧ d.locate target = .ok (d.place target) ∧
        ChangedAt d between (d.place source) none ∧
          ChangedAt between d' (d.place target) (some (.file content)) := by
  unfold rename at h
  cases hfind : d.find source with
  | error e =>
      rw [hfind] at h
      cases h
  | ok found =>
      obtain ⟨l, o⟩ := found
      obtain ⟨-, rfl, hat, -⟩ := find_eq_ok hfind
      rw [hfind, Except.bind] at h
      cases o with
      | directory => cases h
      | file content =>
          dsimp only at h
          cases hlocate : d.locate target with
          | error e =>
              rw [hlocate] at h
              cases h
          | ok new =>
              rw [hlocate, Except.bind] at h
              obtain rfl := eq_place_of_locate hlocate
              have hsource : d.place source ≠ [] := ne_nil_of_at? (d := d) (by simp [hat])
              have hfree : d.at? (d.place target) ≠ some .directory := by
                intro hdirectory
                rw [hdirectory] at h
                cases h
              have hmoved : (d.erase (d.place source)).put (d.place target) (.file content) =
                  d' := by
                cases hnew : d.at? (d.place target) with
                | none =>
                    rw [hnew] at h
                    exact Except.ok.inj h
                | some o =>
                    rw [hnew] at h
                    cases o with
                    | directory => cases h
                    | file old => exact Except.ok.inj h
              refine ⟨content, d.erase (d.place source), hat, hfree, rfl,
                changedAt_erase d hsource, ?_⟩
              rw [← hmoved]
              exact changedAt_put _ (ne_nil_of_at? hfree) _

/-! ## A file beside another one -/

section Beside

variable {d d' : Disk} {temporary target : Path} {content : Content}

/-- A file that is written at a place without files had the place to itself. -/
theorem at?_eq_none_of_write (h : d.write temporary content = .ok d')
    (hfresh : ∀ old, d.at? (d.place temporary) ≠ some (.file old)) :
    d.at? (d.place temporary) = none := by
  obtain ⟨hdirectory, -⟩ := changedAt_of_write h
  cases hat : d.at? (d.place temporary) with
  | none => rfl
  | some o =>
      cases o with
      | directory => exact absurd hat hdirectory
      | file old => exact absurd hat (hfresh old)

/-- A file that is written at a free place and removed leaves no trace, and removing it succeeds. -/
theorem exists_remove_of_write (h : d.write temporary content = .ok d')
    (hfresh : ∀ old, d.at? (d.place temporary) ≠ some (.file old)) :
    ∃ d'', d'.remove temporary = .ok d'' ∧ d''.workingDirectory = d.workingDirectory ∧
      ∀ l, d''.at? l = d.at? l := by
  have hempty := at?_eq_none_of_write h hfresh
  obtain ⟨hdirectory, hwritten, hlocate, hslash⟩ := changedAt_of_write h
  have hkept := locate_of_keepsDirectories (hwritten.keepsDirectories hdirectory)
    hwritten.workingDirectory hlocate
  have hat : d'.at? (d.place temporary) = some (.file content) := by
    rw [hwritten.objects, if_pos rfl]
  have hfind : d'.find temporary = .ok (d.place temporary, .file content) := by
    rw [find, hkept, Except.bind]
    rw [hat]
    simp [hslash]
  have herased := changedAt_erase d' (ne_nil_of_at? hdirectory)
  refine ⟨d'.erase (d.place temporary), ?_, hwritten.workingDirectory, fun l => ?_⟩
  · rw [remove, hfind]
    rfl
  · rw [herased.objects, hwritten.objects]
    split_ifs with hl
    · rw [hl, hempty]
    · rfl

/-- A file that is written at a free place and moved onto another one is found there, and all other
places are as they were. -/
theorem changedAt_of_write_rename {d'' : Disk} (h : d.write temporary content = .ok d')
    (hmove : d'.rename temporary target = .ok d'')
    (hapart : d.place temporary ≠ d.place target)
    (hfresh : ∀ old, d.at? (d.place temporary) ≠ some (.file old))
    (hslash : target.directoryOnly = false) :
    d.at? (d.place target) ≠ some .directory ∧
      ChangedAt d d'' (d.place target) (some (.file content)) ∧
        d''.find target = .ok (d.place target, .file content) := by
  have hempty := at?_eq_none_of_write h hfresh
  obtain ⟨-, hwritten, -, -⟩ := changedAt_of_write h
  obtain ⟨moved, between, hmoved, hdirectory, hlocate, herased, hput⟩ := exists_of_rename hmove
  have hplace (p : Path) : d'.place p = d.place p := place_congr hwritten.workingDirectory p
  rw [hplace] at hmoved hdirectory hlocate herased hput
  obtain rfl : content = moved := by
    rw [hwritten.objects, if_pos rfl] at hmoved
    exact Object.file.inj (Option.some.inj hmoved)
  have hdirectory' : between.at? (d.place target) ≠ some .directory := by
    rwa [herased.objects, if_neg hapart.symm]
  have hchanged : ChangedAt d d'' (d.place target) (some (.file content)) := by
    refine ⟨?_, fun l => ?_⟩
    · rw [hput.workingDirectory, herased.workingDirectory, hwritten.workingDirectory]
    · rw [hput.objects, herased.objects, hwritten.objects]
      split_ifs with htarget htemporary
      · rfl
      · rw [htemporary, hempty]
      · rfl
  refine ⟨?_, hchanged, ?_⟩
  · rwa [hwritten.objects, if_neg hapart.symm] at hdirectory
  · -- no directory goes away when a file does
    have hfile : d'.at? (d.place temporary) ≠ some .directory := by simp [hmoved]
    have hkept : KeepsDirectories d' d'' := fun l hl =>
      hput.keepsDirectories hdirectory' l (herased.keepsDirectories hfile l hl)
    have hstart : d''.workingDirectory = d'.workingDirectory :=
      hput.workingDirectory.trans herased.workingDirectory
    rw [find, locate_of_keepsDirectories hkept hstart hlocate, Except.bind]
    rw [hchanged.objects, if_pos rfl]
    simp [hslash]

end Beside

/-! ## Contents -/

/-- The content of the file at a place. -/
def content? (d : Disk) (l : Location) : Option Content :=
  match d.at? l with
  | some (.file content) => some content
  | _ => none

theorem content?_congr {d d' : Disk} {l : Location} (h : d'.at? l = d.at? l) :
    d'.content? l = d.content? l := by
  rw [content?, content?, h]

theorem content?_of_file {d : Disk} {l : Location} {content : Content}
    (h : d.at? l = some (.file content)) : d.content? l = some content := by
  rw [content?, h]

theorem content?_of_none {d : Disk} {l : Location} (h : d.at? l = none) : d.content? l = none := by
  rw [content?, h]

theorem content?_of_directory {d : Disk} {l : Location} (h : d.at? l = some .directory) :
    d.content? l = none := by
  rw [content?, h]

/-- The text of a file that is found can be read. -/
theorem read_of_find {d : Disk} {p : Path} {l : Location} {text : String}
    (h : d.find p = .ok (l, .file (.text text))) : d.read p = .ok text := by
  rw [read, h]
  rfl

/-- A directory where nothing was is no change of a content. -/
theorem content?_eq_of_grown {d d' : Disk} {l : Location}
    (h : d'.at? l = d.at? l ∨ d.at? l = none ∧ d'.at? l = some .directory) :
    d'.content? l = d.content? l := by
  rcases h with hsame | ⟨hnone, hdirectory⟩
  · exact content?_congr hsame
  · rw [content?_of_none hnone, content?_of_directory hdirectory]

/-! ## New directories -/

/-- A disk that has more than another one only directories, at places among some given ones. -/
structure Grown (places : Location → Prop) (d d' : Disk) : Prop where
  workingDirectory : d'.workingDirectory = d.workingDirectory
  objects : ∀ l, d'.at? l = d.at? l ∨
    places l ∧ d.at? l = none ∧ d'.at? l = some .directory

namespace Grown

variable {places places' : Location → Prop} {d d' d'' : Disk}

theorem refl (places : Location → Prop) (d : Disk) : Grown places d d :=
  ⟨rfl, fun _ => Or.inl rfl⟩

theorem trans (h : Grown places d d') (h' : Grown places d' d'') : Grown places d d'' := by
  refine ⟨h'.workingDirectory.trans h.workingDirectory, fun l => ?_⟩
  rcases h'.objects l with hsame' | ⟨hplace, hnone', hdirectory'⟩
  · rcases h.objects l with hsame | ⟨hplace, hnone, hdirectory⟩
    · exact Or.inl (hsame'.trans hsame)
    · exact Or.inr ⟨hplace, hnone, hsame'.trans hdirectory⟩
  · rcases h.objects l with hsame | ⟨-, -, hdirectory⟩
    · exact Or.inr ⟨hplace, hsame.symm.trans hnone', hdirectory'⟩
    · rw [hnone'] at hdirectory
      cases hdirectory

theorem mono (h : Grown places d d') (hle : ∀ l, places l → places' l) :
    Grown places' d d' := by
  refine ⟨h.workingDirectory, fun l => ?_⟩
  rcases h.objects l with hsame | ⟨hplace, hnew⟩
  · exact Or.inl hsame
  · exact Or.inr ⟨hle l hplace, hnew⟩

/-- Nothing goes away. -/
theorem at?_eq_some (h : Grown places d d') {l : Location} {o : Object} (hat : d.at? l = some o) :
    d'.at? l = some o := by
  rcases h.objects l with hsame | ⟨-, hnone, -⟩
  · exact hsame.trans hat
  · rw [hat] at hnone
    cases hnone

theorem keepsDirectories (h : Grown places d d') : KeepsDirectories d d' :=
  fun _ => h.at?_eq_some

end Grown

/-- Making a directory adds one directory. -/
theorem grown_of_makeDirectory {d d' : Disk} {p : Path} (h : d.makeDirectory p = .ok d') :
    Grown (· = d.place p) d d' := by
  obtain ⟨hnone, hchanged⟩ := changedAt_of_makeDirectory h
  refine ⟨hchanged.workingDirectory, fun l => ?_⟩
  rw [hchanged.objects]
  split_ifs with hl
  · rw [hl]
    exact Or.inr ⟨rfl, hnone, rfl⟩
  · exact Or.inl rfl

end Disk

end DagScaffold.Files
