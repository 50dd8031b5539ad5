import Mathlib
import DagScaffold.Proofs.Fronts
import DagScaffold.Proofs.Revalidation

/-!
# Projects made from manifests

The payload made from a manifest is accepted, whatever the manifest records, when its stage is one
that exists and the project has a name that it can have. Only the robin code can stand in the way:
it is taken from the folder as it is found there, and the folder may have blanks in its place.

* `HasRobinPart` : the robin code in a folder, said without the functions that cut the folder;
* `robinOfFolder?_eq_some_iff` : the code that is found;
* `HasBlankRobin`, `validate_toPayload` : when the payload of a manifest is accepted.
-/

namespace DagScaffold.Manifest

open DagScaffold.Project

/-! ## The robin code in a folder -/

/-- A folder falls at its first mark into the name of a project and what is behind the mark. -/
def CutAtMark (folder project rest : String) : Prop :=
  folder = project ++ "/r_" ++ rest ∧
    ∀ front back, folder = front ++ "/r_" ++ back → project.length ≤ front.length

/-- What stands in a text before its first underscore, and all of it when there is none. -/
def BeforeUnderscore (text front : String) : Prop :=
  '_' ∉ front.toList ∧ (text = front ∨ ∃ back, text = front ++ "_" ++ back)

/-- The part of a folder that counts as its robin code. It ends where the name of the project stands
again behind an underscore at the end of the folder, and at the first underscore when another name
stands there. -/
inductive HasRobinPart (folder : String) : String → Prop
  | named {project robin : String} : CutAtMark folder project (robin ++ "_" ++ project) →
    robin ≠ "" →
      HasRobinPart folder robin
  | renamed {project rest robin : String} : CutAtMark folder project rest →
      (∀ front, rest ≠ front ++ "_" ++ project) → BeforeUnderscore rest robin → robin ≠ "" →
      HasRobinPart folder robin

/-- A folder is cut at the first mark of a robin code. -/
theorem cutAtMark_iff (folder project rest : String) :
    CutAtMark folder project rest ↔
      splitAtFirst? ['/', 'r', '_'] folder.toList = some (project.toList, rest.toList) := by
  have hchars (front back : String) : folder = front ++ "/r_" ++ back ↔
      folder.toList = front.toList ++ (['/', 'r', '_'] ++ back.toList) := by
    rw [← String.toList_inj, String.toList_append, String.toList_append, List.append_assoc]
    rfl
  rw [splitAtFirst?_eq_some_iff, CutAtMark, hchars]
  refine and_congr_right fun _ =>
    ⟨fun hfirst front back hsplit => ?_, fun hfirst front back hsplit => ?_⟩
  · have hlength := hfirst (.ofList front) (.ofList back) (by
      rw [hchars, String.toList_ofList, String.toList_ofList]
      exact hsplit)
    rwa [String.length_ofList, ← String.length_toList] at hlength
  · rw [← String.length_toList, ← String.length_toList]
    exact hfirst _ _ ((hchars front back).mp hsplit)

/-- What is read up to an underscore is what stands before the first one. -/
theorem takeWhile_eq_iff (text front : String) :
    text.toList.takeWhile (· ≠ '_') = front.toList ↔ BeforeUnderscore text front := by
  constructor
  · intro h
    have hsplit := List.takeWhile_append_dropWhile (p := (· ≠ '_')) (l := text.toList)
    rw [h] at hsplit
    refine ⟨fun hmem => ?_, ?_⟩
    · rw [← h] at hmem
      have hne := List.mem_takeWhile_imp hmem
      exact of_decide_eq_true hne rfl
    · cases hrest : text.toList.dropWhile (· ≠ '_') with
      | nil =>
          rw [hrest, List.append_nil] at hsplit
          exact .inl (String.toList_inj.mp hsplit.symm)
      | cons c back =>
          -- the rest opens with the underscore that ended the front
          have hopen := List.head?_dropWhile_not (· ≠ '_') text.toList
          rw [hrest, List.head?_cons] at hopen
          have hc : c = '_' := by simpa using hopen
          refine .inr ⟨.ofList back, ?_⟩
          rw [← String.toList_inj, ← hsplit, hrest, hc]
          simp
  · rintro ⟨hfree, rfl | ⟨back, rfl⟩⟩
    · rw [List.takeWhile_eq_self_iff]
      intro c hc
      exact decide_eq_true (ne_of_mem_of_not_mem hc hfree)
    · rw [String.toList_append, String.toList_append, List.append_assoc,
        List.takeWhile_append_of_pos fun c hc => decide_eq_true (ne_of_mem_of_not_mem hc hfree)]
      simp

/-- The robin code is what stands before the name of the project, or else before the first
underscore. -/
theorem robinPart_eq_iff (project rest robin : String) :
    robinPart project.toList rest.toList = robin.toList ↔
      rest = robin ++ "_" ++ project ∨
        (∀ front, rest ≠ front ++ "_" ++ project) ∧ BeforeUnderscore rest robin := by
  have hchars (front : String) : rest = front ++ "_" ++ project ↔
      beforeEnd? ('_' :: project.toList) rest.toList = some front.toList := by
    rw [beforeEnd?_eq_some_iff, ← String.toList_inj, String.toList_append, String.toList_append,
      List.append_assoc]
    rfl
  rw [robinPart]
  cases hend : beforeEnd? ('_' :: project.toList) rest.toList with
  | some front =>
      have hother : ¬∀ front, rest ≠ front ++ "_" ++ project := fun h =>
        h (.ofList front) ((hchars _).mpr (by rw [hend, String.toList_ofList]))
      rw [hchars, hend, Option.getD_some, Option.some.injEq]
      simp only [hother, false_and, or_false]
  | none =>
      have hother (front : String) : rest ≠ front ++ "_" ++ project := by
        rw [Ne, hchars, hend]
        exact Option.some_ne_none _ ∘ Eq.symm
      rw [Option.getD_none, takeWhile_eq_iff]
      simp only [hother, ne_eq, not_false_eq_true, implies_true, true_and, false_or]

/-- The robin code of a folder is the normal form of the part that stands for it. -/
theorem robinOfFolder?_eq_some_iff (folder code : String) :
    robinOfFolder? folder = some code ↔
      ∃ robin, HasRobinPart folder robin ∧ code = normalizeRobin robin := by
  rw [robinOfFolder?, Option.bind_eq_some_iff]
  constructor
  · rintro ⟨⟨front, back⟩, hsplit, hcode⟩
    have hcut : CutAtMark folder (.ofList front) (.ofList back) := by
      rw [cutAtMark_iff, String.toList_ofList, String.toList_ofList]
      exact hsplit
    have hpart := (robinPart_eq_iff (.ofList front) (.ofList back)
      (.ofList (robinPart front back))).mp (by simp only [String.toList_ofList])
    dsimp only at hcode
    split_ifs at hcode with hempty
    have hne : String.ofList (robinPart front back) ≠ "" := by
      rw [Ne, ← String.toList_eq_nil_iff, String.toList_ofList]
      simpa using hempty
    refine ⟨.ofList (robinPart front back), ?_, (Option.some.inj hcode).symm⟩
    rcases hpart with hsame | ⟨hother, hbefore⟩
    · exact .named (hsame ▸ hcut) hne
    · exact .renamed hcut hother hbefore hne
  · rintro ⟨robin, hpart, rfl⟩
    -- both ways to find the part give it from the two parts of the folder
    obtain ⟨project, rest, hcut, hrobin, hne⟩ : ∃ project rest, CutAtMark folder project rest ∧
        robinPart project.toList rest.toList = robin.toList ∧ robin ≠ "" := by
      cases hpart with
      | named hcut hne => exact ⟨_, _, hcut, (robinPart_eq_iff _ _ _).mpr (.inl rfl), hne⟩
      | renamed hcut hother hbefore hne =>
          exact ⟨_, _, hcut, (robinPart_eq_iff _ _ _).mpr (.inr ⟨hother, hbefore⟩), hne⟩
    refine ⟨_, (cutAtMark_iff folder project rest).mp hcut, ?_⟩
    have hempty : robin.toList.isEmpty = false :=
      List.isEmpty_eq_false_iff.mpr (mt String.toList_eq_nil_iff.mp hne)
    dsimp only
    rw [hrobin, hempty, String.ofList_toList]
    rfl

/-! ## The payload of a manifest -/

/-- Whether nothing but blanks is left of the robin code in the folder of a manifest when it is cut
to its length. -/
def HasBlankRobin (m : Manifest) : Prop :=
  ∃ folder robin, m.folder = some folder ∧ HasRobinPart folder robin ∧
    (robin.toList.take robinLength).all Text.isBlank = true

/-- A manifest without a folder, or with one that has no part for the code, gives the unknown
code. -/
theorem robin_toPayload_of_none {m : Manifest} (name : String)
    (h : ¬∃ folder robin, m.folder = some folder ∧ HasRobinPart folder robin) :
    (m.toPayload name).robin = unknownRobin := by
  have hnone : m.folder.bind robinOfFolder? = none := by
    rw [Option.eq_none_iff_forall_not_mem]
    intro code hcode
    obtain ⟨folder, hfolder, hfound⟩ := Option.bind_eq_some_iff.mp hcode
    obtain ⟨robin, hpart, -⟩ := (robinOfFolder?_eq_some_iff folder code).mp hfound
    exact h ⟨folder, robin, hfolder, hpart⟩
  rw [toPayload, hnone, Option.getD_none]

/-- The robin code of a loaded project is that of its folder, in its normal form. -/
theorem robin_toPayload_of_hasRobinPart {m : Manifest} {folder robin : String} (name : String)
    (hfolder : m.folder = some folder) (hpart : HasRobinPart folder robin) :
    (m.toPayload name).robin = normalizeRobin robin := by
  have hfound := (robinOfFolder?_eq_some_iff folder _).mpr ⟨robin, hpart, rfl⟩
  rw [toPayload, hfolder, Option.bind_some, hfound, Option.getD_some]

/-- The robin code of a manifest's payload is blank when the folder has blanks in its place. -/
theorem isBlankText_robin_toPayload_iff (name : String) (m : Manifest) :
    Text.isBlankText (m.toPayload name).robin = true ↔ m.HasBlankRobin := by
  constructor
  · intro hblank
    by_cases hpart : ∃ folder robin, m.folder = some folder ∧ HasRobinPart folder robin
    · obtain ⟨folder, robin, hfolder, hpart⟩ := hpart
      rw [robin_toPayload_of_hasRobinPart name hfolder hpart, isBlankText_normalizeRobin] at hblank
      exact ⟨folder, robin, hfolder, hpart, hblank⟩
    · rw [robin_toPayload_of_none name hpart] at hblank
      exact absurd hblank (by decide)
  · rintro ⟨folder, robin, hfolder, hpart, hblank⟩
    rw [robin_toPayload_of_hasRobinPart name hfolder hpart, isBlankText_normalizeRobin, hblank]

/-- The robin code of a manifest's payload is in normal form. -/
theorem normalizeRobin_robin_toPayload (name : String) (m : Manifest) :
    normalizeRobin (m.toPayload name).robin = (m.toPayload name).robin := by
  by_cases hpart : ∃ folder robin, m.folder = some folder ∧ HasRobinPart folder robin
  · obtain ⟨folder, robin, hfolder, hpart⟩ := hpart
    rw [robin_toPayload_of_hasRobinPart name hfolder hpart, normalizeRobin_normalizeRobin]
  · rw [robin_toPayload_of_none name hpart]
    rfl

/-- The payload of a manifest breaks no rule but the one for a blank robin code. -/
theorem violations_toPayload {name : String} (hname : nameProblem? name = none) {m : Manifest}
    (hstage : ∀ stage, m.stage = some stage → stage = "LIL" ∨ stage = "SXB") :
    (m.toPayload name).violations =
      if Text.isBlankText (m.toPayload name).robin then [.robinBlank] else [] := by
  have hnames : Payload.checkName name = [] := by
    rw [Payload.checkName_eq_nil_iff]
    exact ⟨isBlankText_eq_false_of_nameProblem? hname, nameProblem?_normalizeName hname⟩
  have hknown : (Stage.ofName? (m.stage.getD "LIL")).isSome = true := by
    cases hm : m.stage with
    | none => rfl
    | some stage =>
        rcases hstage stage hm with rfl | rfl
        · rfl
        · rfl
  have hsteps : (Payload.checkSteps [] 0 (m.toPayload name).pipeline).violations = [] := by
    rfl
  rw [Payload.violations, hsteps, Payload.checkHead]
  simp only [toPayload, hnames, hknown, if_true, List.isEmpty_cons, Bool.false_eq_true, if_false,
    List.nil_append, List.append_nil]

/-- A manifest with a stage that exists gives a project with any name that a project can have,
unless the robin code in its folder is blank in the length that a code keeps: then the code, which
counts as found, is refused and nothing else is. A manifest of which the folder has no part for the
code gets the unknown one. -/
theorem validate_toPayload {name : String} (hname : nameProblem? name = none) {m : Manifest}
    (hstage : ∀ stage, m.stage = some stage → stage = "LIL" ∨ stage = "SXB") :
    (¬m.HasBlankRobin → ∃ c, (m.toPayload name).validate = .ok c ∧ c.name = normalizeName name ∧
      c.robin = (m.toPayload name).robin) ∧
    (m.HasBlankRobin → (m.toPayload name).validate = .error [.robinBlank]) ∧
    ((¬∃ folder robin, m.folder = some folder ∧ HasRobinPart folder robin) →
      (m.toPayload name).robin = unknownRobin) := by
  have hviolations := violations_toPayload hname hstage
  refine ⟨fun hnone => ?_, fun hblank => ?_, robin_toPayload_of_none name⟩
  · have hfree : Text.isBlankText (m.toPayload name).robin ≠ true :=
      mt (isBlankText_robin_toPayload_iff name m).mp hnone
    rw [if_neg hfree] at hviolations
    refine ⟨(m.toPayload name).toConfig, ?_, rfl, normalizeRobin_robin_toPayload name m⟩
    exact (Payload.validate_eq_ok_iff _ _).mpr ⟨hviolations, rfl⟩
  · rw [if_pos ((isBlankText_robin_toPayload_iff name m).mpr hblank)] at hviolations
    rw [Payload.validate, hviolations]

/-- A manifest of a project that was renamed by hand, with a code that opens with one blank. -/
def renamedProject : Manifest where
  folder := some "demo/r_ X_y_other"
  stage := some "SXB"
  pools := ["", ""]

theorem not_hasBlankRobin_renamedProject : ¬renamedProject.HasBlankRobin := by
  rw [← isBlankText_robin_toPayload_iff "Demo-2"]
  decide +kernel

/-- A project whose folder was renamed by hand is loaded as a valid one. -/
theorem validate_toPayload_renamedProject :
    nameProblem? "Demo-2" = none ∧
      (∀ stage, renamedProject.stage = some stage → stage = "LIL" ∨ stage = "SXB") ∧
      ¬renamedProject.HasBlankRobin ∧
      ∃ c, (renamedProject.toPayload "Demo-2").validate = .ok c ∧ c.name = "demo-2" ∧
        c.robin = " x" := by
  have hname : nameProblem? "Demo-2" = none := by decide
  have hstage : ∀ stage, renamedProject.stage = some stage → stage = "LIL" ∨ stage = "SXB" := by
    intro stage h
    exact .inr (Option.some.inj h).symm
  obtain ⟨haccepted, -, -⟩ := validate_toPayload hname hstage
  obtain ⟨c, hvalid, hc, hrobin⟩ := haccepted not_hasBlankRobin_renamedProject
  exact ⟨hname, hstage, not_hasBlankRobin_renamedProject, c, hvalid, hc.trans (by decide +kernel),
    hrobin.trans (by decide +kernel)⟩

/-- A manifest of which the folder has a blank in the place of the robin code. -/
def blankCode : Manifest where
  folder := some "demo/r_ _demo"

/-- The folder of a project can hold a robin code that is refused. -/
theorem not_forall_validate_toPayload :
    ¬∀ (name : String) (m : Manifest), nameProblem? name = none →
      (∀ stage, m.stage = some stage → stage = "LIL" ∨ stage = "SXB") →
        ∃ c, (m.toPayload name).validate = .ok c := by
  intro h
  obtain ⟨c, hvalid⟩ := h "demo" blankCode (by decide) (fun stage hstage => by cases hstage)
  have hrefused : (blankCode.toPayload "demo").validate = .error [.robinBlank] := by rfl
  rw [hrefused] at hvalid
  cases hvalid

end DagScaffold.Manifest
