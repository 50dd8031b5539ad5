import Mathlib
import DagScaffold.Companion
import DagScaffold.Proofs.Preservation
import DagScaffold.Proofs.Yaml.Nesting
import DagScaffold.Proofs.Yaml.Numbers

/-!
# The delivery pipeline as a document

The name of a project stands in its delivery pipeline without quotes, so it is read like any plain
text: most names stand for themselves, but some are read as a flag, as nothing or as a number, and a
lone hyphen cannot stand there at all.

* `Value.Under` : the values below a path of keys;
* `document_delivery`, `document_delivery_hyphen` : the document of the file, or none;
* `run_delivery` : the value that is read from the file;
* `namesComponent_iff_of_validate` : the names that are read as they are.
-/

namespace DagScaffold

namespace Yaml

/-! ## Values below keys -/

/-- Whether a value is found below a path of keys of maps within maps. -/
inductive Value.Under : List String → Value → Value → Prop
  | here {v : Value} : Under [] v v
  | member {key : String} {keys : List String} {ms : List (Value × Value)} {v w : Value} :
    (.text key, v) ∈ ms → Under keys v w → Under (key :: keys) (.map ms) w

/-- Below some keys of a map is what is below the others in the value of the first one. -/
theorem Value.under_cons_iff {key : String} {keys : List String} {ms : List (Value × Value)}
    {w : Value} :
    Under (key :: keys) (.map ms) w ↔ ∃ v, (.text key, v) ∈ ms ∧ Under keys v w := by
  constructor
  · rintro (_ | ⟨hmem, hunder⟩)
    exact ⟨_, hmem, hunder⟩
  · rintro ⟨v, hmem, hunder⟩
    exact .member hmem hunder

/-- Below no keys is the value itself. -/
theorem Value.under_nil_iff {v w : Value} : Under [] v w ↔ w = v := by
  constructor
  · rintro ⟨⟩
    rfl
  · rintro rfl
    exact .here

/-! ## Slugs -/

/-- The characters of a name are shown. -/
theorem isShown_of_isSlugChar {c : Char} (h : IsSlugChar c) : isShown c = true := by
  apply h.of_forall_le
  decide +kernel

/-- A slug opens with no mark, unless it is a hyphen. -/
theorem opensWithMark_slug {cs : List Char} (hcs : ∀ c ∈ cs, IsSlugChar c) (hhyphen : cs ≠ ['-']) :
    Written.opensWithMark cs = false := by
  cases cs with
  | nil => rfl
  | cons c cs =>
      have hmark : c ∉ Written.openingMarks := by
        have hall : ∀ d ∈ Written.openingMarks, ¬IsSlugChar d := by
          simp [Written.openingMarks, IsSlugChar]
        intro hmem
        exact hall c hmem (hcs c List.mem_cons_self)
      have hquestion : c ≠ '?' := by
        rintro rfl
        exact not_mem_slug hcs (by decide) List.mem_cons_self
      have hseparates : c = '-' → Written.separates cs.head? = false := by
        rintro rfl
        have hne : cs ≠ [] := fun hnil => hhyphen (congrArg (List.cons '-') hnil)
        obtain ⟨d, ds, rfl⟩ := List.exists_cons_of_ne_nil hne
        have hd : IsSlugChar d := hcs d (by simp)
        have hshown := isShown_iff.mp (isShown_of_isSlugChar hd)
        have hblank : d ≠ ' ' ∧ d ≠ '\t' := by
          constructor <;> rintro rfl <;> exact absurd hd (by decide)
        simp [Written.separates, hblank, hshown.2]
      simp only [Written.opensWithMark, hmark, hquestion, decide_false, Bool.false_or,
        Bool.and_eq_false_imp, decide_eq_true_eq]
      exact hseparates

/-- A slug can stand on a line behind a key, unless it is a hyphen. -/
theorem inline_of_slug {text : String} (htext : ∀ c ∈ text.toList, IsSlugChar c) (hne : text ≠ "")
    (hhyphen : text ≠ "-") : Inline text.toList where
  ne_nil := mt String.toList_eq_nil_iff.mp hne
  shown c hc := isShown_of_isSlugChar (htext c hc)
  first hhead := not_mem_slug htext (by decide) (List.mem_of_mem_head? hhead)
  last := by
    cases hlast : text.toList.getLast? with
    | none => rfl
    | some c =>
        refine decide_eq_false ?_
        rintro rfl
        exact not_mem_slug htext (by decide) (List.mem_of_getLast? hlast)
  mark := opensWithMark_slug htext fun h => hhyphen (String.toList_inj.mp h)
  colon := hasKeyColon_eq_false (not_mem_slug htext (by decide))
  comment := hasComment_eq_false (not_mem_slug htext (by decide))

end Yaml

namespace Companion

open Yaml

/-! ## Lines -/

/-- The lines before that of the component. -/
def frontLines : List Line :=
  [.heading 0 "stages", .item 2 "build" 0, .item 2 "deploy" 1,
    .heading 0 "build", .member 2 "stage" "build" 0, .member 2 "script" "echo \"Building...\"" 1,
    .heading 0 "deploy", .member 2 "stage" "deploy" 0]

/-- The line of the component and the one after it. -/
def backLines (name : String) : List Line :=
  [.member 2 "component" name 0, .member 2 "script" "echo \"Deploying...\"" 0]

/-- The text of the pipeline is made of its lines, those with the name at the end. -/
theorem delivery_toList (c : Config) :
    (delivery c).toList = linesBefore 2 (linesBefore 0 [] (backLines c.name)) frontLines := by
  unfold delivery
  simp [backLines, frontLines, linesBefore, Line.chars, firstColumn, Line.column]

/-- The lines before those with the name can be read. -/
theorem linesFit_frontLines : LinesFit 2 frontLines := by
  have hstages : IsKey "stages" := by decide
  have hbuild : IsKey "build" := by decide
  have hdeploy : IsKey "deploy" := by decide
  have hstage : IsKey "stage" := by decide
  have hscript : IsKey "script" := by decide
  have hbuild' : Inline "build".toList := .of_plainAllowed (by decide) (by decide)
  have hdeploy' : Inline "deploy".toList := .of_plainAllowed (by decide) (by decide)
  have hecho : Inline "echo \"Building...\"".toList := .of_plainAllowed (by decide) (by decide)
  simp only [frontLines, LinesFit, Line.Fits, firstColumn, Line.column, hstages, hbuild, hdeploy,
    hstage, hscript, hecho, hbuild', hdeploy', le_refl, Nat.zero_le, Nat.zero_lt_two, and_self]

/-! ## Documents -/

/-- A plain text without a tag. -/
def plainNode (text : String) : Node :=
  .scalar none .plain text

/-- The document of a delivery pipeline whose component is the text. -/
def deliveryNode (component : String) : Node :=
  .map none
    [(plainNode "stages", .list none [plainNode "build", plainNode "deploy"]),
      (plainNode "build",
        .map none [(plainNode "stage", plainNode "build"),
          (plainNode "script", plainNode "echo \"Building...\"")]),
      (plainNode "deploy",
        .map none [(plainNode "stage", plainNode "deploy"),
          (plainNode "component", plainNode component),
          (plainNode "script", plainNode "echo \"Deploying...\"")])]

/-- The tokens before that of the component. -/
def frontTokens : List Token :=
  [.blockMap, .key, .scalar .plain "stages", .value,
    .blockList, .entry, .scalar .plain "build", .entry, .scalar .plain "deploy", .blockEnd,
    .key, .scalar .plain "build", .value,
    .blockMap, .key, .scalar .plain "stage", .value, .scalar .plain "build",
    .key, .scalar .plain "script", .value, .scalar .plain "echo \"Building...\"", .blockEnd,
    .key, .scalar .plain "deploy", .value,
    .blockMap, .key, .scalar .plain "stage", .value, .scalar .plain "deploy"]

/-- The tokens of a delivery pipeline whose component is the text. -/
def deliveryTokens (component : String) : List Token :=
  frontTokens ++ [.key, .scalar .plain "component", .value, .scalar .plain component,
    .key, .scalar .plain "script", .value, .scalar .plain "echo \"Deploying...\"", .blockEnd,
    .blockEnd]

/-- The tokens of the lines before those with the name. -/
theorem foldl_frontLines : frontLines.foldl Nest.after {} = ⟨frontTokens, [2, 0]⟩ := by
  rfl

/-- The lines with the name can be read when the name can be written inside a line. -/
theorem linesFit_backLines {name : String} (h : Inline name.toList) :
    LinesFit 0 (backLines name) := by
  have hcomponent : IsKey "component" := by decide
  have hscript : IsKey "script" := by decide
  have hecho : Inline "echo \"Deploying...\"".toList := .of_plainAllowed (by decide) (by decide)
  simp only [backLines, LinesFit, Line.Fits, firstColumn, Line.column, hcomponent, hscript, hecho,
    h, le_refl, Nat.zero_le, and_self]

/-- The tokens of the pipeline, of which one is the name. -/
theorem tokens_delivery {c : Config} (h : Inline c.name.toList) :
    tokens (delivery c).toList = .ok (deliveryTokens c.name) := by
  have hend : ((frontLines ++ backLines c.name).foldl Nest.after {}).closed 0 =
      ⟨(deliveryTokens c.name).dropLast, [0]⟩ := by
    rw [List.foldl_append, foldl_frontLines]
    rfl
  have hfit : LinesFit 0 (frontLines ++ backLines c.name) :=
    LinesFit.append linesFit_frontLines (linesFit_backLines h)
  have htokens := tokens_linesBefore hfit rfl hend
  have hlines := linesBefore_append 0 [] frontLines (backLines c.name)
  rw [delivery_toList]
  exact hlines ▸ htokens

/-- The document that is made from these tokens. -/
theorem tree_deliveryTokens (component : String) :
    tree (deliveryTokens component) = .ok ⟨deliveryNode component, [], {}⟩ := by
  simp [tree, deliveryTokens, frontTokens, directives, node, content, properties, resolveTag,
    Anchors.declare, Anchors.complete, Except.bind, Except.map, Built.map, items, members,
    memberValue, lacksItem, lacksMember, deliveryNode, plainNode, scalarTag]

/-- A project has a document for its pipeline, unless its name is a hyphen. -/
theorem document_delivery {c : Config} (hname : ∀ x ∈ c.name.toList, IsSlugChar x)
    (hne : c.name ≠ "") (hhyphen : c.name ≠ "-") :
    document (delivery c) = .ok ⟨deliveryNode c.name, []⟩ := by
  have hinline := inline_of_slug hname hne hhyphen
  have hprint : ∀ x ∈ (delivery c).toList, Written.isPrintable x = true := by
    rw [delivery_toList]
    exact isPrintable_of_mem_linesBefore linesFit_frontLines
      (isPrintable_of_mem_linesBefore (linesFit_backLines hinline) (by simp))
  exact document_eq_ok hprint (tokens_delivery hinline) (tree_deliveryTokens c.name) rfl

/-- The name that is a hyphen opens a list where none can be. -/
theorem document_delivery_hyphen {c : Config} (hhyphen : c.name = "-") :
    document (delivery c) = .error .misplacedIndicator := by
  have hprint : ∀ x ∈ (delivery c).toList, Written.isPrintable x = true := by
    rw [delivery_toList, hhyphen]
    have hback : (linesBefore 0 [] (backLines "-")).all Written.isPrintable = true := by decide
    exact isPrintable_of_mem_linesBefore linesFit_frontLines (List.all_eq_true.mp hback)
  refine document_eq_error hprint ?_
  obtain ⟨more, hback, hends⟩ : ∃ more,
      linesBefore 0 [] (backLines "-") = "component".toList ++ ':' :: ' ' :: '-' :: more ∧
        endsWord more = true := by
    refine ⟨'\n' :: (List.replicate 2 ' ' ++ linesBefore 0 [] ((backLines "-").tail)), ?_, rfl⟩
    rw [backLines, linesBefore, Line.chars, List.append_assoc]
    rfl
  rw [delivery_toList, hhyphen, hback]
  exact tokens_hyphen linesFit_frontLines rfl foldl_frontLines (by decide) (by decide) hends

/-- The value of a delivery pipeline whose component is the value. -/
def deliveryValue (component : Value) : Value :=
  .map
    [(.text "stages", .list [.text "build", .text "deploy"]),
      (.text "build", .map [(.text "stage", .text "build"),
        (.text "script", .text "echo \"Building...\"")]),
      (.text "deploy",
        .map [(.text "stage", .text "deploy"), (.text "component", component),
          (.text "script", .text "echo \"Deploying...\"")])]

/-- A plain text is read as a text when it has no other meaning. -/
theorem untaggedValue_eq_text_iff (text : String) :
    untaggedValue .plain text = .ok (.text text) ↔ meaning text = .text := by
  rw [untaggedValue, if_pos rfl]
  cases meaning text <;> simp

/-- The value of the document is that of the name in its place. -/
theorem value_deliveryNode (component : String) (depth budget : Nat) :
    Reader.value (depth + 3) [] (deliveryNode component) budget =
      (untaggedValue .plain component).map fun v => (deliveryValue v, budget) := by
  have hplain {text : String} (h : meaning text = .text) (depth : Nat) :
      Reader.value depth [] (plainNode text) budget = .ok (.text text, budget) := by
    rw [plainNode, Reader.value_scalar, untaggedValue_of_meaning fun _ => h]
    rfl
  have hstages := @hplain "stages" (by decide)
  have hstage := @hplain "stage" (by decide)
  have hbuild := @hplain "build" (by decide)
  have hdeploy := @hplain "deploy" (by decide)
  have hscript := @hplain "script" (by decide)
  have hcomponent := @hplain "component" (by decide)
  have hbuilding := @hplain "echo \"Building...\"" (by decide)
  have hdeploying := @hplain "echo \"Deploying...\"" (by decide)
  have hname : Reader.value (depth + 1) [] (plainNode component) budget = _ :=
    Reader.value_scalar (depth + 1) .plain component budget
  cases hvalue : untaggedValue .plain component <;>
    simp [deliveryNode, deliveryValue, Reader.value_map, Reader.value_list, Reader.pairs,
      Reader.each, hstages, hstage, hbuild, hdeploy, hscript, hcomponent, hbuilding, hdeploying,
      hname, hvalue, Value.same, Except.bind, Except.map]

/-- The value that is read from a pipeline has the value of the name for its component. -/
theorem run_delivery {c : Config} (hname : ∀ x ∈ c.name.toList, IsSlugChar x) (hne : c.name ≠ "")
    (hhyphen : c.name ≠ "-") :
    (Reader.value Reader.maxDepth).run (delivery c) =
      (untaggedValue .plain c.name).map deliveryValue := by
  have hvalue (budget : Nat) := value_deliveryNode c.name 125 budget
  rw [Reader.run, document_delivery hname hne hhyphen]
  show (((Reader.value (125 + 3)) [] (deliveryNode c.name) _).map Prod.fst) = _
  rw [hvalue]
  cases untaggedValue .plain c.name <;> rfl

/-- Below the keys of the component is the value of the name only. -/
theorem under_deliveryValue_iff (component w : Value) :
    (deliveryValue component).Under ["deploy", "component"] w ↔ w = component := by
  simp [deliveryValue, Value.under_cons_iff, Value.under_nil_iff]

/-! ## Names -/

/-- Whether the pipeline of a project is read as a map in which the component to deploy is the name
of the project. -/
def NamesComponent (c : Config) : Prop :=
  ∃ v, (Reader.value Reader.maxDepth).run (delivery c) = .ok v ∧
    ∀ w, v.Under ["deploy", "component"] w ↔ w = .text c.name

/-- The pipeline names its component unless the name is a hyphen or has another meaning. -/
theorem namesComponent_iff {c : Config} (hname : ∀ x ∈ c.name.toList, IsSlugChar x)
    (hne : c.name ≠ "") :
    NamesComponent c ↔ c.name ≠ "-" ∧ meaning c.name = .text := by
  by_cases hhyphen : c.name = "-"
  · refine iff_of_false ?_ fun h => h.1 hhyphen
    rintro ⟨v, hrun, -⟩
    rw [Reader.run, document_delivery_hyphen hhyphen] at hrun
    cases hrun
  · rw [NamesComponent, run_delivery hname hne hhyphen, ← untaggedValue_eq_text_iff]
    constructor
    · rintro ⟨v, hread, hunder⟩
      refine ⟨hhyphen, ?_⟩
      cases hvalue : untaggedValue .plain c.name with
      | error fault =>
          rw [hvalue] at hread
          cases hread
      | ok u =>
          rw [hvalue] at hread
          obtain rfl := Except.ok.inj hread
          have hsame := (under_deliveryValue_iff u u).mpr rfl
          rw [(hunder u).mp hsame]
    · rintro ⟨-, hvalue⟩
      rw [hvalue]
      exact ⟨_, rfl, under_deliveryValue_iff _⟩

/-- The files of a project have one pipeline. -/
theorem mem_files_iff (c : Config) (f : ProjectFile) :
    f ∈ files c ∧ f.path = [".cicd", "pipeline.cicd.yaml"] ↔
      f = ⟨[".cicd", "pipeline.cicd.yaml"], delivery c⟩ := by
  constructor
  · rintro ⟨hmem, hpath⟩
    have hother {g : ProjectFile} (hg : g.path ≠ [".cicd", "pipeline.cicd.yaml"]) : f ≠ g := by
      rintro rfl
      exact hg hpath
    have henvironment : f ∉ environmentFiles c := by
      rw [environmentFiles]
      split_ifs
      · exact List.mem_singleton.not.mpr (hother (of_decide_eq_false rfl))
      · exact List.mem_singleton.not.mpr (hother (of_decide_eq_false rfl))
      · exact List.not_mem_nil
    have htests : f ∉ if c.prepareTests then [(⟨["airflow.cfg"], testConfiguration⟩ : ProjectFile)]
        else [] := by
      split_ifs
      · exact List.mem_singleton.not.mpr (hother (of_decide_eq_false rfl))
      · exact List.not_mem_nil
    rw [files, List.mem_append, List.mem_append] at hmem
    have hfirst := (hmem.resolve_right htests).resolve_right henvironment
    simp only [List.mem_cons, List.not_mem_nil, or_false] at hfirst
    rcases hfirst with h | h | h | h
    · exact absurd h (hother (of_decide_eq_false rfl))
    · exact absurd h (hother (of_decide_eq_false rfl))
    · exact absurd h (hother (of_decide_eq_false rfl))
    · exact h
  · rintro rfl
    refine ⟨?_, rfl⟩
    rw [files, List.mem_append, List.mem_append]
    exact .inl (.inl (List.mem_of_getElem? (i := 3) rfl))

/-- The pipeline of a validated project is a map, unless the name of the project is a hyphen. The
component in it is the name, unless that is a word for nothing or for a flag, or writes a number. -/
theorem namesComponent_iff_of_validate {p : Payload} {c : Config} (h : p.validate = .ok c) :
    (∀ f, f ∈ files c ∧ f.path = [".cicd", "pipeline.cicd.yaml"] ↔
        f = ⟨[".cicd", "pipeline.cicd.yaml"], delivery c⟩) ∧
      ((∃ ms, document (delivery c) = .ok ⟨.map none ms, []⟩) ↔ c.name ≠ "-") ∧
        (NamesComponent c ↔ c.name ∉ ["-", "null", "true", "false"] ∧
          ¬WritesNumber c.name.toList) := by
  have hplain := (Payload.wellFormed_of_validate h).plain
  have hname : ∀ x ∈ c.name.toList, IsSlugChar x := hplain.name_chars
  have hne : c.name ≠ "" := hplain.name_nonempty
  refine ⟨mem_files_iff c, ?_, ?_⟩
  · constructor
    · rintro ⟨ms, hdocument⟩ hhyphen
      rw [document_delivery_hyphen hhyphen] at hdocument
      cases hdocument
    · intro hhyphen
      exact ⟨_, document_delivery hname hne hhyphen⟩
  · have hwords : c.name ∉ ["-", "null", "true", "false"] ↔
        c.name ≠ "-" ∧ c.name ∉ ["null", "true", "false"] := by
      rw [List.mem_cons, not_or]
    rw [namesComponent_iff hname hne, meaning_eq_text_iff hname hne, hwords, and_assoc]

/-- A row of digits with a needless zero is no number. -/
theorem namesComponent_needlessZero :
    (Payload.called "007").validate = .ok (Payload.called "007").toConfig ∧
      NamesComponent (Payload.called "007").toConfig := by
  have hvalid : (Payload.called "007").validate = .ok (Payload.called "007").toConfig := by rfl
  have hplain := (Payload.wellFormed_of_validate hvalid).plain
  have htext := (meaning_eq_text_iff hplain.name_chars hplain.name_nonempty).mp (by decide)
  refine ⟨hvalid, ?_⟩
  exact (namesComponent_iff_of_validate hvalid).2.2.mpr ⟨by decide, htext.2⟩

/-- The component of a project whose name is a row of digits is a number. -/
theorem not_forall_namesComponent :
    ¬∀ (p : Payload) (c : Config), p.validate = .ok c → NamesComponent c := by
  intro h
  have hvalid : (Payload.called "2024").validate = .ok (Payload.called "2024").toConfig := by rfl
  have hplain := (Payload.wellFormed_of_validate hvalid).plain
  have hmeaning := ((namesComponent_iff hplain.name_chars hplain.name_nonempty).mp (h _ _ hvalid)).2
  exact absurd hmeaning (by decide)

end Companion

end DagScaffold
