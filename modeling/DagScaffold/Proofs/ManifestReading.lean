import Mathlib
import DagScaffold.Manifest.Reader
import DagScaffold.Manifest.Writer
import DagScaffold.Project.Validation
import DagScaffold.Proofs.Yaml.Members

/-!
# Manifests are read as what they record

The manifest of any project is read, and every key has what its text is read as. Of a list that is
true if no break but a line feed divides the lines of its items.

* `Entry.member`, `Entry.pair` : an entry as a member of a document, and what it is read as;
* `recorded` : the manifest that is written for a project;
* `asRead` : a manifest with what its texts are read as;
* `read_write_asRead` : reading what was written;
* `read_write_of_dividedByFeeds` : the texts that are read as they were written.
-/

namespace DagScaffold.Manifest

open Yaml

/-! ## Entries as members of a document -/

/-- Texts with line feeds between them, and one more line feed, are the lines of the texts. -/
theorem toList_intercalate_lines {ss : List String} (hne : ss ≠ []) :
    ("\n".intercalate ss).toList ++ ['\n'] = ss.flatMap fun s => s.toList ++ ['\n'] := by
  induction ss with
  | nil => exact absurd rfl hne
  | cons s ss ih =>
      cases ss with
      | nil => simp
      | cons t ss =>
          rw [String.intercalate_cons_cons, String.toList_append, String.toList_append,
            List.append_assoc, List.append_assoc, ih (List.cons_ne_nil t ss), List.flatMap_cons]
          simp

namespace Entry

/-- The member of a document that an entry is written as. -/
def member : Entry → Member
  | text key value => .text key (.ofText value)
  | word key value => .text key (.ofWord (.plain value))
  | list key items => .list key (items.map .ofItem)

/-- What an entry is read as. -/
def pair : Entry → String × Value
  | text key value => (key, .text (asText value))
  | word key value => (key, if value = "true" then .flag true else .text value)
  | list key items => (key, .list (items.map fun item => .text (asItem item)))

/-- Whether what is written for an entry can be read: its word is no mark of the document, and its
list is not empty and has no item whose lines are divided by other breaks than line feeds. -/
def Readable : Entry → Prop
  | text key _ => IsKey key
  | word key value => IsKey key ∧ (Word.plain value).Fits ∧ (value = "true" ∨ meaning value = .text)
  | list key items => IsKey key ∧ items ≠ [] ∧ ∀ item ∈ items, DividedByFeeds item

/-- An entry is written as the lines of its member. -/
theorem toList_render (e : Entry) : e.render.toList ++ ['\n'] = e.member.chars := by
  cases e with
  | text key value => simp [render, member, Member.chars, Piece.ofText]
  | word key value => simp [render, member, Member.chars, Piece.ofWord, Word.chars]
  | list key items =>
      rw [render, toList_intercalate_lines (List.cons_ne_nil _ _), List.flatMap_cons,
        List.flatMap_map]
      have hitems : (items.flatMap fun item =>
          ("  - " ++ Yaml.written itemIndentation item).toList ++ ['\n']) =
          (items.map Piece.ofItem).flatMap Piece.itemChars := by
        rw [List.flatMap_map]
        refine List.flatMap_congr fun item _ => ?_
        have hdash : "  - ".toList = [' ', ' ', '-', ' '] := rfl
        rw [String.toList_append, hdash, Piece.itemChars, Piece.ofItem, itemIndentation]
        simp
      rw [hitems]
      simp [member, Member.chars]

/-- An entry that can be read has lines that fit. -/
theorem fits_member {e : Entry} (h : e.Readable) : e.member.Fits := by
  cases e with
  | text key value =>
      refine ⟨h, List.cons_ne_nil _ _, fun w hw => ?_⟩
      rw [List.mem_singleton.mp hw]
      exact Piece.fits_ofText value
  | word key value =>
      obtain ⟨hkey, hfits, -⟩ := h
      refine ⟨hkey, List.cons_ne_nil _ _, fun w hw => ?_⟩
      rw [List.mem_singleton.mp hw]
      exact Piece.fits_ofWord hfits 1
  | list key items =>
      obtain ⟨hkey, hne, hitems⟩ := h
      refine ⟨hkey, mt List.map_eq_nil_iff.mp hne, fun w hw => ?_⟩
      obtain ⟨item, hitem, rfl⟩ := List.mem_map.mp hw
      exact Piece.fits_ofItem (hitems item hitem)

/-- An entry is read as its key and its value. -/
theorem means_member {e : Entry} (h : e.Readable) : e.member.Means e.pair := by
  cases e with
  | text key value => exact .text (untaggedValue_ofText value)
  | word key value =>
      refine .text ?_
      rcases h.2.2 with rfl | hmeaning
      · -- the word of a flag that is on
        rfl
      · have hother : value ≠ "true" := by
          rintro rfl
          exact absurd hmeaning (by decide)
        rw [if_neg hother]
        exact untaggedValue_of_meaning fun _ => hmeaning
  | list key items =>
      have hmeans : Member.Means (.list key (items.map Piece.ofItem))
          (key, .list ((items.map Piece.ofItem).map fun w => .text w.text)) := by
        refine .list fun w hw => ?_
        obtain ⟨item, -, rfl⟩ := List.mem_map.mp hw
        exact untaggedValue_ofItem item
      rw [List.map_map] at hmeans
      exact hmeans

end Entry

/-! ## The entries of a project -/

/-- The text of a manifest is made of the lines of its entries. -/
theorem toList_write (settings : Settings) (config : Config) :
    (write settings config).toList =
      ((entries settings config).map Entry.member).flatMap Member.chars := by
  have hne : (entries settings config).map Entry.render ≠ [] := by simp [entries]
  rw [write, String.toList_append]
  show ("\n".intercalate ((entries settings config).map Entry.render)).toList ++ ['\n'] = _
  rw [toList_intercalate_lines hne, List.flatMap_map, List.flatMap_map]
  exact List.flatMap_congr fun e _ => Entry.toList_render e

/-- A text under a condition can be read. -/
theorem readable_optionalText {toggle : Bool} {key value written : String} (hkey : IsKey key) :
    ∀ e ∈ optionalText toggle key value written, e.Readable := by
  intro e he
  unfold optionalText at he
  split_ifs at he
  · rw [List.mem_singleton.mp he]
    exact hkey
  · exact absurd he List.not_mem_nil

/-- A flag under a condition can be read. -/
theorem readable_optionalFlag {flag : Bool} {key : String} (hkey : IsKey key) :
    ∀ e ∈ optionalFlag flag key, e.Readable := by
  intro e he
  unfold optionalFlag at he
  split_ifs at he
  · rw [List.mem_singleton.mp he]
    exact ⟨hkey, ⟨by decide, by decide⟩, .inl rfl⟩
  · exact absurd he List.not_mem_nil

/-- The stage can be read. -/
theorem readable_stage (stage : Stage) : (Entry.word "stage" stage.name).Readable := by
  refine ⟨by decide, ?_⟩
  cases stage with
  | lil => exact ⟨⟨by decide, by decide⟩, .inr (by decide)⟩
  | sxb => exact ⟨⟨by decide, by decide⟩, .inr (by decide)⟩

/-- Every entry of a project can be read if its pools can. -/
theorem readable_entries {settings : Settings} {c : Config}
    (hpools : ∀ pool ∈ c.pools, DividedByFeeds pool) :
    ∀ e ∈ entries settings c, e.Readable := by
  intro e he
  simp only [entries, List.mem_append, List.mem_cons, List.not_mem_nil, or_false, or_assoc] at he
  rcases he with rfl | rfl | rfl | rfl | hlist | hsilot | hconda | hinput | houtput | hnas | hgpu
  · exact (by decide : IsKey "folder")
  · exact readable_stage c.stage
  · exact (by decide : IsKey "ld_data")
  · exact (by decide : IsKey "persoid")
  · split_ifs at hlist with hempty
    · exact absurd hlist List.not_mem_nil
    · rw [List.mem_singleton.mp hlist]
      exact ⟨by decide, mt List.isEmpty_iff.mpr hempty, hpools⟩
  · exact readable_optionalText (by decide) e hsilot
  · exact readable_optionalText (by decide) e hconda
  · exact readable_optionalText (by decide) e hinput
  · exact readable_optionalText (by decide) e houtput
  · exact readable_optionalFlag (by decide) e hnas
  · exact readable_optionalFlag (by decide) e hgpu

/-! ## What is recorded -/

/-- The text that is written when a toggle is on and its value is not empty. -/
def kept (toggle : Bool) (value written : String) : Option String :=
  if toggle && value ≠ "" then some written else none

/-- What the manifest of a project records. -/
def recorded (settings : Settings) (config : Config) : Manifest where
  folder := some config.folder
  stage := some config.stage.name
  dataDomain := some (Text.toUpper config.dataDomain)
  owner := some config.owner
  pools := config.pools
  silot := kept config.useVertica config.silot config.silot
  envName := kept config.useConda config.condaEnv config.condaEnv
  inputFolder := kept config.useInput config.inputPath (settings.dataPath config.inputPath)
  outputFolder := kept config.useOutput config.outputPath (settings.dataPath config.outputPath)
  nas := config.useNas
  gpu := config.useGpu

/-- A manifest with what its texts are read as. -/
def asRead (m : Manifest) : Manifest where
  folder := m.folder.map asText
  stage := m.stage
  dataDomain := m.dataDomain.map asText
  owner := m.owner.map asText
  pools := m.pools.map asItem
  silot := m.silot.map asText
  envName := m.envName.map asText
  inputFolder := m.inputFolder.map asText
  outputFolder := m.outputFolder.map asText
  nas := m.nas
  gpu := m.gpu

/-- Of two values for a key the later one counts. -/
theorem valueOf_append (es es' : List (String × Value)) (key : String) :
    valueOf (es ++ es') key = (valueOf es' key).or (valueOf es key) := by
  rw [valueOf, List.reverse_append, List.lookup_append]
  rfl

/-- The value for the key of a text under a condition. -/
theorem valueOf_optionalText (toggle : Bool) (key value written key' : String) :
    valueOf ((optionalText toggle key value written).map Entry.pair) key' =
      if key' = key then (kept toggle value written).map (.text ∘ asText) else none := by
  unfold optionalText kept
  by_cases hon : (toggle && value ≠ "") = true
  · rw [if_pos hon, if_pos hon]
    by_cases hkey : key' = key
    · simp [valueOf, Entry.pair, hkey]
    · simp [valueOf, Entry.pair, hkey]
  · rw [if_neg hon, if_neg hon]
    simp [valueOf]

/-- The value for the key of a flag under a condition. -/
theorem valueOf_optionalFlag (flag : Bool) (key key' : String) :
    valueOf ((optionalFlag flag key).map Entry.pair) key' =
      if key' = key ∧ flag = true then some (.flag true) else none := by
  cases flag with
  | false => simp [valueOf, optionalFlag]
  | true =>
      by_cases hkey : key' = key
      · simp [valueOf, optionalFlag, Entry.pair, hkey]
      · simp [valueOf, optionalFlag, Entry.pair, hkey]

/-- The value for the key of the pools, if there are any. -/
theorem valueOf_pools (pools : List String) (key' : String) :
    valueOf ((if pools.isEmpty then [] else [Entry.list "pools" pools]).map Entry.pair) key' =
      if key' = "pools" ∧ pools ≠ [] then some (.list (pools.map (.text ∘ asItem))) else none := by
  cases pools with
  | nil => simp [valueOf]
  | cons pool pools =>
      by_cases hkey : key' = "pools"
      · simp [valueOf, Entry.pair, hkey]
      · simp [valueOf, Entry.pair, hkey]

/-- The values for the keys that every manifest has. -/
theorem valueOf_head (config : Config) (key' : String) :
    valueOf ([Entry.text "folder" config.folder,
        .word "stage" config.stage.name,
        .text "ld_data" (Text.toUpper config.dataDomain),
        .text "persoid" config.owner].map Entry.pair) key' =
      if key' = "persoid" then some (.text (asText config.owner))
      else if key' = "ld_data" then some (.text (asText (Text.toUpper config.dataDomain)))
      else if key' = "stage" then some (.text config.stage.name)
      else if key' = "folder" then some (.text (asText config.folder))
      else none := by
  have hstage : (Entry.word "stage" config.stage.name).pair =
      ("stage", .text config.stage.name) := by
    cases config.stage <;> rfl
  have hcons : ∀ (key : String) (v : Value) (es : List (String × Value)),
      ((key, v) :: es).lookup key' = if key' = key then some v else es.lookup key' := by
    intro key v es
    by_cases h : key' = key
    · rw [if_pos h, h, List.lookup_cons_self]
    · rw [if_neg h, List.lookup_cons, beq_false_of_ne h]
  rw [List.map_cons, List.map_cons, hstage]
  show List.lookup key' [("persoid", Value.text (asText config.owner)),
    ("ld_data", Value.text (asText (Text.toUpper config.dataDomain))),
    ("stage", Value.text config.stage.name), ("folder", Value.text (asText config.folder))] = _
  rw [hcons, hcons, hcons, hcons, List.lookup_nil]

theorem bind_spelling?_map_asText (value : Option String) :
    (value.map (Value.text ∘ asText)).bind Value.spelling? = value.map asText := by
  cases value <;> rfl

/-- The keys of a manifest have what their texts are read as. -/
theorem ofEntries_pairs (settings : Settings) (config : Config) :
    ofEntries ((entries settings config).map Entry.pair) = (recorded settings config).asRead := by
  -- every key is looked up in the part of the entries that may have it
  simp only [ofEntries, asRead, recorded, textOf, flagOf, listOf, entries, List.map_append,
    valueOf_append, valueOf_optionalText, valueOf_optionalFlag, valueOf_pools, valueOf_head,
    String.reduceEq, false_and, true_and, if_true, if_false, ne_eq, Option.or_some, Option.or_none,
    Option.none_or, Option.getD_none, Option.bind_some, mk.injEq]
  refine ⟨rfl, rfl, rfl, rfl, ?pools, bind_spelling?_map_asText _, bind_spelling?_map_asText _,
    bind_spelling?_map_asText _, bind_spelling?_map_asText _, ?nas, ?gpu⟩
  case pools =>
    by_cases hpools : config.pools = []
    · rw [hpools]
      rfl
    · rw [if_pos hpools]
      show (config.pools.map (Value.text ∘ asItem)).filterMap Value.spelling? =
        config.pools.map asItem
      rw [List.filterMap_map]
      exact congrFun List.filterMap_eq_map config.pools
  case nas => cases config.useNas <;> rfl
  case gpu => cases config.useGpu <;> rfl

/-- What was written for a project is read as its texts are. -/
theorem read_write_asRead {settings : Settings} {c : Config}
    (hpools : ∀ pool ∈ c.pools, DividedByFeeds pool) :
    read (write settings c) = .ok (recorded settings c).asRead := by
  have hreadable := @readable_entries settings c hpools
  have hchars := toList_write settings c
  have hne : (entries settings c).map Entry.member ≠ [] := by simp [entries]
  have hfits : ∀ m ∈ (entries settings c).map Entry.member, m.Fits := by
    intro m hm
    obtain ⟨e, he, rfl⟩ := List.mem_map.mp hm
    exact Entry.fits_member (hreadable e he)
  have hmeans : List.Forall₂ Member.Means ((entries settings c).map Entry.member)
      ((entries settings c).map Entry.pair) := by
    rw [List.forall₂_map_left_iff, List.forall₂_map_right_iff, List.forall₂_same]
    exact fun e he => Entry.means_member (hreadable e he)
  have hblank : Text.isBlankText (write settings c) = false := by
    rw [Text.isBlankText, hchars]
    rfl
  rw [read, hblank, Reader.run_entries_chars hchars hne hfits hmeans, ← ofEntries_pairs]
  rfl

/-! ## Manifests that are read as they were written -/

/-- The texts that a manifest has for its keys, but the stage and the pools. -/
def keyTexts (m : Manifest) : List String :=
  [m.folder, m.dataDomain, m.owner, m.silot, m.envName, m.inputFolder, m.outputFolder].reduceOption

/-- A text that may be missing is read as it is when it is missing or read as it is. -/
theorem map_asText_eq_self_iff (value : Option String) :
    value.map asText = value ↔ ∀ s, some s = value → asText s = s := by
  cases value <;> simp

/-- Items are read as they are when each of them is. -/
theorem map_asItem_eq_self_iff (items : List String) :
    items.map asItem = items ↔ ∀ item ∈ items, asItem item = item := by
  induction items with
  | nil => simp
  | cons item items ih => rw [List.map_cons, List.cons.injEq, ih, List.forall_mem_cons]

/-- A manifest is read as it was written if its texts are. -/
theorem asRead_eq_self_iff (m : Manifest) :
    m.asRead = m ↔ (∀ s ∈ m.keyTexts, asText s = s) ∧ ∀ pool ∈ m.pools, asItem pool = pool := by
  obtain ⟨folder, stage, dataDomain, owner, pools, silot, envName, inputFolder, outputFolder, nas,
    gpu⟩ := m
  simp only [asRead, mk.injEq, map_asText_eq_self_iff, map_asItem_eq_self_iff, keyTexts,
    List.reduceOption_mem_iff, List.mem_cons, List.not_mem_nil, or_false]
  grind

/-- The manifest of a project is read if the lines of its pools are divided by line feeds. A text
has the value that it was written with unless it is written over lines: then it must keep its end,
and a pool must not open with a space or a break. -/
theorem read_write_of_dividedByFeeds {settings : Settings} {c : Config}
    (hpools : ∀ pool ∈ c.pools, DividedByFeeds pool) :
    read (write settings c) = .ok (recorded settings c).asRead ∧
      (∀ s ∈ (recorded settings c).keyTexts,
        asText s = s ↔ (Written.style s = .literal → KeepsEnd s.toList)) ∧
      ∀ pool ∈ c.pools,
        asItem pool = pool ↔
          (Written.style pool = .literal → opensDeeper pool.toList = false ∧
            KeepsEnd pool.toList) :=
  ⟨read_write_asRead hpools, fun s _ => asText_eq_self_iff s, fun pool hpool =>
    asItem_eq_self_iff (hpools pool hpool)⟩

/-- A project with texts over lines: one loses the line feeds at its end but one, and the blanks
before the lines of another become a part of it. -/
def linedTexts : Payload where
  name := "demo"
  robin := "rb1"
  owner := "a\n\n"
  useVertica := true
  silot := " b\nc"
  pipeline := [{ id := "s1", tasks := [{ id := "t1", name := "extract" }] }]
  pools := ["a\nb\n", " a\nb"]

/-- The pools of the project are divided by line feeds. -/
theorem dividedByFeeds_linedTexts : ∀ pool ∈ linedTexts.toConfig.pools, DividedByFeeds pool := by
  decide

/-- The manifest of a project with texts over lines is read, without the line feeds that it loses.
-/
theorem read_write_of_dividedByFeeds_linedTexts :
    (∀ pool ∈ linedTexts.toConfig.pools, DividedByFeeds pool) ∧
      read (write {} linedTexts.toConfig) =
        .ok
          { folder := some "demo/r_rb1_demo"
            stage := some "LIL"
            dataDomain := some ""
            owner := some "a\n"
            pools := ["a\nb\n", "   a\n  b"]
            silot := some " b\nc" } := by
  refine ⟨dividedByFeeds_linedTexts,
    (read_write_of_dividedByFeeds dividedByFeeds_linedTexts).1.trans ?_⟩
  decide +kernel

/-- The owner of a validated project is not always read back. -/
theorem not_forall_owner_read_eq :
    ¬∀ (settings : Settings) (p : Payload) (c : Config), p.validate = .ok c →
      '\n' ∈ c.owner.toList → ∃ m, read (write settings c) = .ok m ∧ m.owner = some c.owner := by
  intro h
  obtain ⟨m, hread, howner⟩ := h {} linedTexts linedTexts.toConfig (by rfl) (by decide)
  rw [read_write_asRead dividedByFeeds_linedTexts] at hread
  obtain rfl := Except.ok.inj hread
  exact absurd howner (by decide)

end DagScaffold.Manifest
