import Mathlib
import DagScaffold.Proofs.CaseMapping
import DagScaffold.Proofs.Fronts
import DagScaffold.Proofs.ManifestReading
import DagScaffold.Proofs.Validity

/-!
# Manifests are read back

The manifest of a validated project, none of whose written texts has the end of a line in it, is
read back as what it records, and the payload made from it has the settings of the project. What a
manifest does not keep is replaced: the tasks, the schedule, the owner of a project without one, and
every value whose toggle is off or that is empty.

* `read_write` : reading what was written;
* `robinOfFolder?_of_validate` : the robin code is recovered from the folder;
* `toPayload_of_read_write` : the payload made from the manifest of a validated project.
-/

namespace DagScaffold.Manifest

open Yaml

/-! ## Texts without the end of a line -/

/-- Whether a text has the end of a line in it. -/
def hasLineEnd (s : String) : Bool :=
  s.toList.any Written.isLineEnd

/-- Whether no text that is written for a project has the end of a line in it. -/
structure OnOneLine (settings : Settings) (config : Config) : Prop where
  robin : hasLineEnd config.robin = false
  owner : hasLineEnd config.owner = false
  dataDomain : hasLineEnd config.dataDomain = false
  condaEnv : hasLineEnd config.condaEnv = false
  silot : hasLineEnd config.silot = false
  inputPath : hasLineEnd config.inputPath = false
  outputPath : hasLineEnd config.outputPath = false
  pools : ∀ pool ∈ config.pools, hasLineEnd pool = false
  workspaceRoot : hasLineEnd settings.workspaceRoot = false

/-- A text has a line end when one of its two parts has. -/
theorem hasLineEnd_append (s t : String) :
    hasLineEnd (s ++ t) = (hasLineEnd s || hasLineEnd t) := by
  rw [hasLineEnd, String.toList_append, List.any_append]
  rfl

/-- A path taken from the root of the workspace stays on its line. -/
theorem hasLineEnd_dataPath {settings : Settings} {path : String}
    (hroot : hasLineEnd settings.workspaceRoot = false) (hpath : hasLineEnd path = false) :
    hasLineEnd (settings.dataPath path) = false := by
  have hslash : hasLineEnd "/" = false := by decide
  unfold Settings.dataPath Files.join
  split_ifs
  · exact hpath
  · exact hpath
  · rw [hasLineEnd_append, hroot, hpath, Bool.or_self]
  · rw [hasLineEnd_append, hasLineEnd_append, hroot, hslash, hpath, Bool.or_self, Bool.or_self]

/-- No other character becomes the end of a line in upper case. -/
theorem hasLineEnd_toUpper {s : String} (h : hasLineEnd s = false) :
    hasLineEnd (Text.toUpper s) = false := by
  have hall : (lineEnds.map Char.toNat).all Text.isOwnUpper = true := by decide +kernel
  have hown : ∀ d, Written.isLineEnd d = true → Text.isOwnUpper d.toNat = true := fun d hd =>
    List.all_eq_true.mp hall _ (List.mem_map_of_mem (mem_lineEnds_of_isLineEnd hd))
  rw [hasLineEnd, List.any_eq_false] at h ⊢
  intro d hd hend
  rw [Text.toUpper, String.toList_ofList] at hd
  obtain ⟨c, hc, hdc⟩ := List.mem_flatMap.mp hd
  rw [← Text.eq_of_mem_upperChar (hown d hend) hdc] at hend
  exact h c hc hend

/-- The folder of a project stays on its line, since the name of the project has no end of a
line. -/
theorem hasLineEnd_folder {c : Config} (hwell : c.WellFormed)
    (hrobin : hasLineEnd c.robin = false) :
    hasLineEnd c.folder = false := by
  have hname : hasLineEnd c.name = false := by
    rw [hasLineEnd, List.any_eq_false]
    intro d hd hend
    have hchar := ((Project.nameProblem?_eq_none_iff c.name).mp hwell.name_usable).2 d hd
    have hother : lineEnds.all (fun e => !Project.isNameChar e) = true := by decide
    have hno := List.all_eq_true.mp hother d (mem_lineEnds_of_isLineEnd hend)
    rw [hchar] at hno
    exact absurd hno (by decide)
  have hslash : hasLineEnd "/r_" = false := by decide
  have hunderscore : hasLineEnd "_" = false := by decide
  rw [Config.folder, hasLineEnd_append, hasLineEnd_append, hasLineEnd_append, hasLineEnd_append,
    hname, hslash, hrobin, hunderscore]
  rfl

/-- A text on one line is not written over lines. -/
theorem style_ne_literal {s : String} (h : hasLineEnd s = false) : Written.style s ≠ .literal := by
  intro hstyle
  rw [hasLineEnd, List.any_eq_false] at h
  exact h '\n' (newline_mem_of_literal hstyle) rfl

/-- The texts behind keys have no line ends when the project is on one line. -/
theorem hasLineEnd_of_mem_keyTexts {settings : Settings} {c : Config} (hwell : c.WellFormed)
    (hlines : OnOneLine settings c) :
    ∀ s ∈ (recorded settings c).keyTexts, hasLineEnd s = false := by
  have hkept {toggle : Bool} {value written s : String} (hwritten : hasLineEnd written = false)
      (hs : some s = kept toggle value written) : hasLineEnd s = false := by
    unfold kept at hs
    split_ifs at hs
    obtain rfl := Option.some.inj hs
    exact hwritten
  intro s hs
  simp only [keyTexts, recorded, List.reduceOption_mem_iff, List.mem_cons, List.not_mem_nil,
    or_false, Option.some.injEq] at hs
  rcases hs with rfl | rfl | rfl | hs | hs | hs | hs
  · exact hasLineEnd_folder hwell hlines.robin
  · exact hasLineEnd_toUpper hlines.dataDomain
  · exact hlines.owner
  · exact hkept hlines.silot hs
  · exact hkept hlines.condaEnv hs
  · exact hkept (hasLineEnd_dataPath hlines.workspaceRoot hlines.inputPath) hs
  · exact hkept (hasLineEnd_dataPath hlines.workspaceRoot hlines.outputPath) hs

/-- What was written for a validated project is read back. -/
theorem read_write {settings : Settings} {c : Config} (hwell : c.WellFormed)
    (hlines : OnOneLine settings c) : read (write settings c) = .ok (recorded settings c) := by
  have hpools : ∀ pool ∈ c.pools, Written.style pool ≠ .literal := fun pool hpool =>
    style_ne_literal (hlines.pools pool hpool)
  rw [read_write_asRead fun pool hpool hstyle => absurd hstyle (hpools pool hpool),
    (asRead_eq_self_iff _).mpr]
  refine ⟨fun s hs => ?_, fun pool hpool => ?_⟩
  · exact (asText_eq_self_iff s).mpr fun hstyle =>
      absurd hstyle (style_ne_literal (hasLineEnd_of_mem_keyTexts hwell hlines s hs))
  · exact if_neg (hpools pool hpool)

/-! ## The payload of a manifest -/

/-- The robin code is found in the folder again. -/
theorem robinOfFolder?_folder {c : Config} (hwell : c.WellFormed) :
    robinOfFolder? c.folder = some c.robin := by
  have hslash : '/' ∉ c.name.toList := by
    intro hmem
    exact absurd (((Project.nameProblem?_eq_none_iff c.name).mp hwell.name_usable).2 '/' hmem)
      (by decide)
  have hfolder : c.folder.toList =
      c.name.toList ++ (['/', 'r', '_'] ++ (c.robin.toList ++ '_' :: c.name.toList)) := by
    simp [Config.folder]
  have hne : c.robin.toList.isEmpty = false :=
    List.isEmpty_eq_false_iff.mpr (mt String.toList_eq_nil_iff.mp hwell.robin_nonempty)
  rw [robinOfFolder?, hfolder, splitAtFirst?_append _ hslash]
  show (if (robinPart c.name.toList (c.robin.toList ++ '_' :: c.name.toList)).isEmpty = true
    then none
    else some (Project.normalizeRobin (.ofList (robinPart c.name.toList
      (c.robin.toList ++ '_' :: c.name.toList))))) = _
  -- the name is known, so a code with an underscore in it is still cut at the right one
  have hpart : robinPart c.name.toList (c.robin.toList ++ '_' :: c.name.toList) =
      c.robin.toList := by
    rw [robinPart, beforeEnd?_append, Option.getD_some]
  rw [hpart, hne, String.ofList_toList, hwell.robin_normal]
  rfl

/-- The robin code of a validated project is recovered from its folder, whatever characters the code
holds: the name of a project has no slash, so the first mark in the folder stands behind the name,
and the code ends where the name stands again. -/
theorem robinOfFolder?_of_validate {p : Payload} {c : Config} (h : p.validate = .ok c) :
    robinOfFolder? c.folder = some c.robin :=
  robinOfFolder?_folder (Payload.wellFormed_of_validate h)

/-- A project whose robin code looks like the mark between the parts of a folder and whose name
looks like a robin code between underscores. -/
def markedRobin : Payload where
  name := "R_a r"
  robin := "/R_\nxyz"
  pipeline := [{ id := "s1", tasks := [{ id := "t1", name := "extract" }] }]

/-- A robin code with the mark and a line feed in it is found in its folder. -/
theorem robinOfFolder?_markedRobin :
    markedRobin.validate = .ok markedRobin.toConfig ∧
      markedRobin.toConfig.folder = "r_a_r/r_/r_\n_r_a_r" ∧
      robinOfFolder? "r_a_r/r_/r_\n_r_a_r" = some "/r_\n" := by
  have h : markedRobin.validate = .ok markedRobin.toConfig := by rfl
  have hfolder : markedRobin.toConfig.folder = "r_a_r/r_/r_\n_r_a_r" := by rfl
  have hrobin : markedRobin.toConfig.robin = "/r_\n" := by rfl
  refine ⟨h, hfolder, ?_⟩
  rw [← hfolder, robinOfFolder?_of_validate h, hrobin]

theorem isSome_kept (toggle : Bool) (value written : String) :
    (kept toggle value written).isSome = (toggle && value ≠ "") := by
  unfold kept
  split_ifs with hon
  · rw [hon]
    rfl
  · rw [Bool.eq_false_of_not_eq_true hon]
    rfl

theorem getD_kept (toggle : Bool) (value written default : String) :
    (kept toggle value written).getD default =
      if toggle && value ≠ "" then written else default := by
  unfold kept
  split_ifs <;> rfl

/-- A manifest of a validated project without the end of a line in its texts is read back, and the
payload made from it has the settings of the project: a toggle is on when it was on with a value
that is not empty, paths of data are taken from the root of the workspace, and a project without an
owner gets the default one. -/
theorem toPayload_of_read_write {settings : Settings} {p : Payload} {c : Config}
    (h : p.validate = .ok c) (hlines : OnOneLine settings c) :
    ∃ m, read (write settings c) = .ok m ∧
      toPayload c.name m =
        { name := c.name
          robin := c.robin
          owner := if c.owner = "" then "jovyan" else c.owner
          dataDomain := Text.toLower (Text.toUpper c.dataDomain)
          stage := c.stage.name
          useConda := c.useConda && c.condaEnv ≠ ""
          condaEnv := if c.useConda && c.condaEnv ≠ "" then c.condaEnv else Payload.defaultCondaEnv
          useVertica := c.useVertica && c.silot ≠ ""
          silot := if c.useVertica && c.silot ≠ "" then c.silot else Payload.defaultSilot
          useInput := c.useInput && c.inputPath ≠ ""
          inputPath :=
            if c.useInput && c.inputPath ≠ "" then settings.dataPath c.inputPath else ""
          useOutput := c.useOutput && c.outputPath ≠ ""
          outputPath :=
            if c.useOutput && c.outputPath ≠ "" then settings.dataPath c.outputPath else ""
          useNas := c.useNas
          useGpu := c.useGpu
          pools := c.pools
          pipeline := [{ id := "s1", tasks := [placeholder] }] } := by
  have hwell := Payload.wellFormed_of_validate h
  refine ⟨recorded settings c, read_write hwell hlines, ?_⟩
  have howner : ((some c.owner).filter (· ≠ "")).getD defaultOwner =
      if c.owner = "" then "jovyan" else c.owner := by
    by_cases hempty : c.owner = ""
    · rw [if_pos hempty, hempty]
      rfl
    · simp [Option.filter, hempty]
  simp only [toPayload, recorded, Option.bind_some, robinOfFolder?_folder hwell, Option.getD_some,
    Option.map_some, isSome_kept, getD_kept, howner]

/-- A project whose texts mean something else to a reader of the manifest unless they are quoted. -/
def quotedTexts : Payload where
  name := "Demo Run"
  robin := "RB#1x"
  owner := "null"
  dataDomain := "sales: 'eu'"
  useConda := true
  condaEnv := "3.11"
  stage := "SXB"
  useVertica := true
  silot := ""
  useInput := true
  inputPath := "data/in #1"
  useOutput := false
  outputPath := "/data/out"
  useNas := true
  pools := ["", "- 0x1F", "~"]
  pipeline := [{ id := "s1", tasks := [{ id := "t1", name := "extract" }] }]

/-- Texts that must be quoted are read back as they were. -/
theorem toPayload_of_read_write_quotedTexts :
    quotedTexts.validate = .ok quotedTexts.toConfig ∧ OnOneLine {} quotedTexts.toConfig ∧
      ∃ m, read (write {} quotedTexts.toConfig) = .ok m ∧
        toPayload "demo_run" m =
          { name := "demo_run"
            robin := "rb#1"
            owner := "null"
            dataDomain := "sales: 'eu'"
            useConda := true
            condaEnv := "3.11"
            stage := "SXB"
            useVertica := false
            silot := "BANK"
            useInput := true
            inputPath := "/home/jovyan/workspaces/data/in #1"
            useOutput := false
            outputPath := ""
            useNas := true
            pools := ["", "- 0x1F", "~"]
            pipeline := [{ id := "s1", tasks := [placeholder] }] } := by
  have h : quotedTexts.validate = .ok quotedTexts.toConfig := by rfl
  have hlines : OnOneLine {} quotedTexts.toConfig := by
    constructor <;> decide
  exact ⟨h, hlines, toPayload_of_read_write h hlines⟩

end DagScaffold.Manifest
