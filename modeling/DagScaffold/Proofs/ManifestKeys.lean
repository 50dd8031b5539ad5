import Mathlib
import DagScaffold.Manifest.Writer
import DagScaffold.Proofs.TaskOrder
import DagScaffold.Proofs.Yaml.Emitted
import DagScaffold.Text.Blank

/-!
# The keys of a manifest

The lines of a manifest that do not start with a blank are those of its keys, whatever the values
are: a value that goes over several lines stays behind its key.

* `KeyLine`, `keyLines` : the lines that a manifest should have;
* `GoesOn`, `Hangs` : lines that go on with what is before them;
* `keys_of_write` : the lines that it has.
-/

namespace DagScaffold.Manifest

open Yaml Yaml.Written

/-! ## The lines of keys -/

/-- The line of a key: the key, and what follows its colon unless that is a free text. -/
structure KeyLine where
  key : String
  rest? : Option String
  deriving DecidableEq, Repr

/-- Whether a line is the line of a key. -/
def KeyLine.Opens (k : KeyLine) (line : List Char) : Prop :=
  match k.rest? with
  | some rest => line = (k.key ++ ":" ++ rest).toList
  | none => (k.key ++ ": ").toList <+: line

/-- Whether a key starts with a letter and stands on one line with what is known to follow. -/
structure KeyLine.IsLine (k : KeyLine) : Prop where
  letter : k.key.toList.head?.any Char.isAlpha = true
  key_feed : '\n' ∉ k.key.toList
  rest_feed : ∀ rest ∈ k.rest?, '\n' ∉ rest.toList

/-- The lines of the keys that a project should have, in their order. -/
def keyLines (config : Config) : List KeyLine :=
  [⟨"folder", none⟩, ⟨"stage", some (" " ++ config.stage.name)⟩, ⟨"ld_data", none⟩,
    ⟨"persoid", none⟩] ++
    (if config.pools ≠ [] then [⟨"pools", some ""⟩] else []) ++
    (if config.useVertica ∧ config.silot ≠ "" then [⟨"silot", none⟩] else []) ++
    (if config.useConda ∧ config.condaEnv ≠ "" then [⟨"env_name", none⟩] else []) ++
    (if config.useInput ∧ config.inputPath ≠ "" then [⟨"input_folder", none⟩] else []) ++
    (if config.useOutput ∧ config.outputPath ≠ "" then [⟨"output_folder", none⟩] else []) ++
    (if config.useNas then [⟨"NAS", some " true"⟩] else []) ++
    (if config.useGpu then [⟨"GPU", some " true"⟩] else [])

/-- The lines of the keys that a manifest can have, in their order. -/
def allLines (stage : Stage) : List KeyLine :=
  [⟨"folder", none⟩, ⟨"stage", some (" " ++ stage.name)⟩, ⟨"ld_data", none⟩, ⟨"persoid", none⟩,
    ⟨"pools", some ""⟩, ⟨"silot", none⟩, ⟨"env_name", none⟩, ⟨"input_folder", none⟩,
    ⟨"output_folder", none⟩, ⟨"NAS", some " true"⟩, ⟨"GPU", some " true"⟩]

/-- The keys that a manifest can have, in their order. -/
def allKeys : List String :=
  ["folder", "stage", "ld_data", "persoid", "pools", "silot", "env_name", "input_folder",
    "output_folder", "NAS", "GPU"]

/-- A line that stands under a condition, before lines that are among others. -/
theorem sublist_optional {p : Prop} [Decidable p] (k : KeyLine) {ks ks' : List KeyLine}
    (h : ks.Sublist ks') : ((if p then [k] else []) ++ ks).Sublist (k :: ks') := by
  split_ifs
  · exact h.cons_cons k
  · exact h.cons k

/-- A project leaves some of the lines out. -/
theorem sublist_allLines (config : Config) : (keyLines config).Sublist (allLines config.stage) := by
  -- the last line is followed by no others
  rw [← List.append_nil (keyLines config)]
  unfold keyLines allLines
  simp only [List.append_assoc, List.cons_append, List.nil_append, List.cons_sublist_cons]
  iterate 7 apply sublist_optional
  exact List.Sublist.refl []

/-- The keys of a manifest are some of those that a manifest can have. -/
theorem sublist_keyLines (config : Config) : ((keyLines config).map KeyLine.key).Sublist allKeys :=
  (sublist_allLines config).map KeyLine.key

/-- No key stands twice in a manifest. -/
theorem nodup_keyLines (config : Config) : ((keyLines config).map KeyLine.key).Nodup :=
  List.Nodup.sublist (sublist_keyLines config) (by decide)

instance : DecidablePred KeyLine.IsLine := fun k =>
  decidable_of_iff (k.key.toList.head?.any Char.isAlpha = true ∧ '\n' ∉ k.key.toList ∧
      ∀ rest ∈ k.rest?, '\n' ∉ rest.toList)
    ⟨fun ⟨hletter, hkey, hrest⟩ => ⟨hletter, hkey, hrest⟩,
      fun h => ⟨h.letter, h.key_feed, h.rest_feed⟩⟩

/-- Every key starts with a letter and stands on one line. -/
theorem isLine_keyLines (config : Config) : ∀ k ∈ keyLines config, k.IsLine := by
  have hall : ∀ k ∈ allLines config.stage, k.IsLine := by
    cases config.stage with
    | lil => decide
    | sxb => decide
  intro k hk
  exact hall k ((sublist_allLines config).subset hk)

/-- The line of an entry's key. -/
def Entry.keyLine : Entry → KeyLine
  | .text key _ => ⟨key, none⟩
  | .word key value => ⟨key, some (" " ++ value)⟩
  | .list key _ => ⟨key, some ""⟩

theorem entries_ne_nil (settings : Settings) (config : Config) : entries settings config ≠ [] := by
  simp [entries]

/-- The entries of a manifest have the lines of the keys that the project should have. -/
theorem map_keyLine_entries (settings : Settings) (config : Config) :
    (entries settings config).map Entry.keyLine = keyLines config := by
  have htext (toggle : Bool) (key value written : String) :
      (optionalText toggle key value written).map Entry.keyLine =
        if toggle = true ∧ value ≠ "" then [⟨key, none⟩] else [] := by
    unfold optionalText
    cases toggle <;> by_cases hvalue : value = "" <;> simp [hvalue, Entry.keyLine]
  have hflag (flag : Bool) (key : String) : (optionalFlag flag key).map Entry.keyLine =
      if flag = true then [⟨key, some " true"⟩] else [] := by
    cases flag <;> rfl
  have hpools : (if config.pools.isEmpty then [] else [Entry.list "pools" config.pools]).map
      Entry.keyLine = if config.pools ≠ [] then [⟨"pools", some ""⟩] else [] := by
    cases config.pools <;> rfl
  unfold entries keyLines
  simp only [List.map_append, htext, hflag, hpools]
  rfl

/-- The key of every entry is on a line of its own. -/
theorem isLine_keyLine (settings : Settings) (config : Config) :
    ∀ e ∈ entries settings config, e.keyLine.IsLine := fun _ he =>
  isLine_keyLines config _ (map_keyLine_entries settings config ▸ List.mem_map_of_mem he)

/-! ## Lines that go on -/

/-- A letter is no blank. -/
theorem isBlank_of_isAlpha (c : Char) (h : c.isAlpha = true) : Text.isBlank c = false := by
  simp only [Char.isAlpha, Char.isUpper, Char.isLower, Bool.or_eq_true, Bool.and_eq_true,
    decide_eq_true_eq, UInt32.le_iff_toNat_le] at h
  simp only [Text.isBlank, Bool.or_eq_false_iff, Bool.and_eq_false_iff, beq_eq_false_iff_ne,
    decide_eq_false_iff_not]
  have hnat : (65 ≤ c.toNat ∧ c.toNat ≤ 90) ∨ (97 ≤ c.toNat ∧ c.toNat ≤ 122) := h
  omega

/-- A line end is a blank. -/
theorem isBlank_of_isLineEnd (c : Char) (h : isLineEnd c = true) : Text.isBlank c = true := by
  have hmem := mem_lineEnds_of_isLineEnd h
  simp only [lineEnds, List.mem_cons, List.not_mem_nil, or_false] at hmem
  rcases hmem with rfl | rfl | rfl | rfl | rfl <;> rfl


/-- Whether a line is empty or starts with a blank, so that it goes on with what is before it. -/
def GoesOn (blank : Char → Bool) (line : List Char) : Bool :=
  line.head?.all blank

/-- Whether all lines of a text but the first one go on. -/
def Hangs (blank : Char → Bool) (cs : List Char) : Prop :=
  ∀ line ∈ (cs.splitOn '\n').tail, GoesOn blank line = true

section Lines

variable {blank : Char → Bool} {cs : List Char}

/-- A line that goes on does so with more characters behind it. -/
theorem goesOn_append {front line : List Char} (hfront : GoesOn blank front = true)
    (hline : GoesOn blank line = true) : GoesOn blank (front ++ line) = true := by
  cases front with
  | nil => exact hline
  | cons c front => exact hfront

/-- A text on one line has no further lines. -/
theorem hangs_of_not_mem (h : '\n' ∉ cs) : Hangs blank cs := by
  intro line hline
  rw [List.splitOn_eq_singleton h] at hline
  exact absurd hline List.not_mem_nil

/-- A text that hangs still does without the line feeds at its end. -/
theorem Hangs.dropEndFeeds (h : Hangs blank cs) : Hangs blank (dropEndFeeds cs) := by
  obtain ⟨k, hk⟩ := exists_eq_dropEndFeeds cs
  cases k with
  | zero =>
      rw [List.replicate_zero, List.append_nil] at hk
      rwa [← hk]
  | succ k =>
      intro line hline
      refine h line ?_
      rw [hk, List.replicate_succ, List.splitOn_append_cons_self,
        List.tail_append_of_ne_nil (List.splitOn_ne_nil _ _)]
      exact List.mem_append_left _ hline

/-- Further lines still go on with an indentation of blanks. -/
theorem Hangs.indentLines {indent : List Char} (h : Hangs blank cs) (hfeed : '\n' ∉ indent)
    (hindent : GoesOn blank indent = true) : Hangs blank (indentLines indent cs) := by
  intro line hline
  rw [splitOn_indentLines hfeed, List.tail_cons] at hline
  obtain ⟨rest, hrest, rfl⟩ := List.mem_map.mp hline
  exact goesOn_append hindent (h rest hrest)

/-- The further lines of a written form go on where all breaks are blank. -/
theorem hangs_form (hspace : blank ' ' = true) (hends : ∀ c, isLineEnd c = true → blank c = true)
    (s : String) : Hangs blank (form s) := by
  rcases form_eq_header_literal s with hfeed | ⟨-, hform⟩
  · exact hangs_of_not_mem hfeed
  · have hheader : '\n' ∉ '|' :: literalSigns s.toList :=
      List.not_mem_cons_of_ne_of_not_mem (by decide) (newline_not_mem_literalSigns _)
    intro line hline
    rw [hform, List.splitOn_append_cons_self_of_not_mem hheader, List.tail_cons] at hline
    rcases isFurther_of_mem_literalFrom hline with rfl | ⟨rest, rfl⟩ | ⟨c, -, hhead, hend, -⟩
    · rfl
    · exact hspace
    · rw [GoesOn, hhead]
      exact hends c hend

end Lines

/-! ## The lines of an entry -/

/-- The texts that an entry writes. -/
def Entry.texts : Entry → List String
  | .text _ value => [value]
  | .word _ _ => []
  | .list _ items => items

/-- The texts that a manifest writes. -/
def texts (settings : Settings) (config : Config) : List String :=
  (entries settings config).flatMap Entry.texts

section Entries

variable {blank : Char → Bool}

/-- The lines of texts with line feeds between them are the lines of the texts. -/
theorem splitOn_intercalate_lines (s : String) (ss : List String) :
    ("\n".intercalate (s :: ss)).toList.splitOn '\n' =
      (s :: ss).flatMap fun t => t.toList.splitOn '\n' := by
  induction ss generalizing s with
  | nil => simp
  | cons t ss ih =>
      have hchars : ("\n".intercalate (s :: t :: ss)).toList =
          s.toList ++ '\n' :: ("\n".intercalate (t :: ss)).toList := by
        rw [String.intercalate_cons_cons]
        simp
      rw [hchars, List.splitOn_append_cons_self, ih t]
      rfl

/-- What starts with a letter does not go on. -/
theorem goesOn_append_eq_false (hletter : ∀ c : Char, c.isAlpha = true → blank c = false)
    {front : List Char} (h : front.head?.any Char.isAlpha = true) (line : List Char) :
    GoesOn blank (front ++ line) = false := by
  cases front with
  | nil => cases h
  | cons c front => exact hletter c h

/-- An entry with a word is its key and the word on one line. -/
theorem render_word (key value : String) :
    (Entry.word key value).render = key ++ ":" ++ (" " ++ value) := by
  show key ++ (":" ++ " ") ++ value = _
  simp only [String.append_assoc]

/-- All lines of an item go on. -/
theorem goesOn_item (hspace : blank ' ' = true) {item : String}
    (h : Hangs blank (Written.dropEndFeeds (form item))) :
    ∀ line ∈ ("  - " ++ written itemIndentation item).toList.splitOn '\n',
      GoesOn blank line = true := by
  have hindent : '\n' ∉ itemIndentation.toList := by decide
  have hhangs := h.indentLines hindent (show GoesOn blank itemIndentation.toList = true from hspace)
  obtain ⟨first, rest, hsplit⟩ := exists_splitOn_eq_cons
    (Written.indentLines itemIndentation.toList (Written.dropEndFeeds (form item)))
  have hrender : ("  - " ++ written itemIndentation item).toList = "  - ".toList ++
      Written.indentLines itemIndentation.toList (Written.dropEndFeeds (form item)) := by
    simp [written]
  rw [Hangs, hsplit] at hhangs
  rw [hrender, splitOn_append_of_not_mem (by decide), hsplit]
  intro line hline
  rcases List.mem_cons.mp hline with rfl | hline
  · exact hspace
  · exact hhangs line hline

/-- The first line of an entry is that of its key, and all others go on. -/
theorem exists_splitOn_render (hspace : blank ' ' = true)
    (hletter : ∀ c : Char, c.isAlpha = true → blank c = false) {e : Entry} (h : e.keyLine.IsLine)
    (htexts : ∀ s ∈ e.texts, Hangs blank (dropEndFeeds (form s))) :
    ∃ first rest, e.render.toList.splitOn '\n' = first :: rest ∧ e.keyLine.Opens first ∧
      GoesOn blank first = false ∧ ∀ line ∈ rest, GoesOn blank line = true := by
  cases e with
  | text key value =>
      obtain ⟨hkey, hfeed, -⟩ := h
      have hhangs := (htexts value (List.mem_singleton_self _)).indentLines
        (List.not_mem_nil) (rfl : GoesOn blank [] = true)
      obtain ⟨first, rest, hsplit⟩ := exists_splitOn_eq_cons
        (Written.indentLines [] (Written.dropEndFeeds (form value)))
      have hrender : (Entry.text key value).render.toList = (key ++ ": ").toList ++
          Written.indentLines [] (Written.dropEndFeeds (form value)) := by
        simp [Entry.render, written]
      have hfront : '\n' ∉ (key ++ ": ").toList := by
        rw [String.toList_append]
        exact List.not_mem_append hfeed (by decide)
      rw [Hangs, hsplit] at hhangs
      rw [hrender, splitOn_append_of_not_mem hfront, hsplit]
      refine ⟨_, rest, rfl, List.prefix_append _ _, ?_, hhangs⟩
      show GoesOn blank ((key ++ ": ").toList ++ first) = false
      rw [String.toList_append, List.append_assoc]
      exact goesOn_append_eq_false hletter hkey _
  | word key value =>
      obtain ⟨hkey, hfeed, hrest⟩ := h
      have hvalue : '\n' ∉ (" " ++ value).toList := hrest _ rfl
      have hline : '\n' ∉ (Entry.word key value).render.toList := by
        rw [render_word, String.toList_append, String.toList_append]
        exact List.not_mem_append (List.not_mem_append hfeed (by decide)) hvalue
      refine ⟨_, [], List.splitOn_eq_singleton hline, ?_, ?_,
        fun _ hmem => absurd hmem List.not_mem_nil⟩
      · exact congrArg String.toList (render_word key value)
      · rw [render_word, String.append_assoc, String.toList_append]
        exact goesOn_append_eq_false hletter hkey _
  | list key items =>
      obtain ⟨hkey, hfeed, -⟩ := h
      have hfirst : '\n' ∉ (key ++ ":").toList := by
        rw [String.toList_append]
        exact List.not_mem_append hfeed (by decide)
      have hhead : GoesOn blank (key ++ ":").toList = false := by
        rw [String.toList_append]
        exact goesOn_append_eq_false hletter hkey _
      rw [Entry.render, splitOn_intercalate_lines, List.flatMap_cons,
        List.splitOn_eq_singleton hfirst]
      refine ⟨(key ++ ":").toList, _, rfl, ?_, hhead, fun line hline => ?_⟩
      · simp [KeyLine.Opens, Entry.keyLine]
      · rw [List.flatMap_map] at hline
        obtain ⟨item, hitem, hline⟩ := List.mem_flatMap.mp hline
        exact goesOn_item hspace (htexts item hitem) line hline

/-- The lines of entries that do not go on are those of their keys. -/
theorem forall₂_opens_of_entries (hspace : blank ' ' = true)
    (hletter : ∀ c : Char, c.isAlpha = true → blank c = false) {es : List Entry}
    (hes : ∀ e ∈ es, e.keyLine.IsLine)
    (htexts : ∀ e ∈ es, ∀ s ∈ e.texts, Hangs blank (dropEndFeeds (form s))) :
    List.Forall₂ KeyLine.Opens (es.map Entry.keyLine)
      ((es.flatMap fun e => e.render.toList.splitOn '\n').filter
        fun line => !GoesOn blank line) := by
  induction es with
  | nil => exact List.Forall₂.nil
  | cons e es ih =>
      obtain ⟨he, hes⟩ := List.forall_mem_cons.mp hes
      obtain ⟨hte, htes⟩ := List.forall_mem_cons.mp htexts
      obtain ⟨first, rest, hsplit, hopens, hfirst, hrest⟩ :=
        exists_splitOn_render hspace hletter he hte
      have hnone : rest.filter (fun line => !GoesOn blank line) = [] :=
        List.filter_eq_nil_iff.mpr fun line hline => by simp [hrest line hline]
      rw [List.map_cons, List.flatMap_cons, hsplit, List.filter_append, List.filter_cons, hfirst,
        hnone]
      exact List.Forall₂.cons hopens (ih hes htes)

end Entries

/-! ## The lines of a manifest -/

/-- The lines of a text that do not start with a blank. -/
def openLines (blank : Char → Bool) (text : String) : List (List Char) :=
  (text.toList.splitOn '\n').filter fun line => !GoesOn blank line

/-- The lines of a manifest are those of its entries, and an empty one at the end. -/
theorem splitOn_write (settings : Settings) (config : Config) :
    (write settings config).toList.splitOn '\n' =
      (entries settings config).flatMap (fun e => e.render.toList.splitOn '\n') ++ [[]] := by
  have hchars : (write settings config).toList =
      ("\n".intercalate ((entries settings config).map Entry.render)).toList ++ '\n' :: [] := by
    rw [write, String.toList_append]
    rfl
  obtain ⟨e, es, hentries⟩ := List.exists_cons_of_ne_nil (entries_ne_nil settings config)
  rw [hchars, List.splitOn_append_cons_self, hentries, List.map_cons, splitOn_intercalate_lines,
    ← List.map_cons, List.flatMap_map]
  rfl

/-- The lines of a manifest that do not start with a blank are those of its keys, in their order,
when all texts hang. -/
theorem forall₂_opens_openLines {blank : Char → Bool} (hspace : blank ' ' = true)
    (hletter : ∀ c : Char, c.isAlpha = true → blank c = false) {settings : Settings}
    {config : Config} (htexts : ∀ s ∈ texts settings config, Hangs blank (dropEndFeeds (form s))) :
    List.Forall₂ KeyLine.Opens (keyLines config) (openLines blank (write settings config)) := by
  have hforall := forall₂_opens_of_entries hspace hletter (isLine_keyLine settings config)
    fun e he s hs => htexts s (List.mem_flatMap.mpr ⟨e, he, hs⟩)
  have hend : ([[]] : List (List Char)).filter (fun line => !GoesOn blank line) = [] := rfl
  rw [map_keyLine_entries] at hforall
  rw [openLines, splitOn_write, List.filter_append, hend, List.append_nil]
  exact hforall

/-! ## Texts over several lines -/

/-- Whether a text is emitted, up to line feeds at its end, on one line or as a line that is not
empty and further lines that are empty or start with two spaces. -/
def EmittedOverLines (s : String) : Prop :=
  ∃ header rest, (dropEndFeeds (form s)).splitOn '\n' = header :: rest ∧
    (rest = [] ∨ header ≠ [] ∧ ∀ line ∈ rest, line = [] ∨ [' ', ' '] <+: line)

/-- A text that is emitted over indented lines hangs from its first line. -/
theorem EmittedOverLines.hangs {s : String} (h : EmittedOverLines s) :
    Hangs (fun c => c = ' ') (dropEndFeeds (form s)) := by
  obtain ⟨header, rest, hsplit, rfl | ⟨-, hrest⟩⟩ := h
  · intro line hline
    rw [hsplit] at hline
    exact absurd hline List.not_mem_nil
  · intro line hline
    rw [hsplit] at hline
    rcases hrest line hline with rfl | ⟨back, rfl⟩
    · rfl
    · rfl

/-- Texts without the separators of lines and paragraphs are emitted so. -/
theorem emittedOverLines_of_not_mem {s : String} (hline : lineSeparator ∉ s.toList)
    (hparagraph : paragraphSeparator ∉ s.toList) : EmittedOverLines s := by
  obtain ⟨header, rest, hsplit⟩ := exists_splitOn_eq_cons (dropEndFeeds (form s))
  refine ⟨header, rest, hsplit, ?_⟩
  -- the lines of the text without its end are the first of its lines
  have hfront : ∃ feeds, (form s).splitOn '\n' = header :: rest ++ feeds := by
    obtain ⟨k, hk⟩ := exists_eq_dropEndFeeds (form s)
    rw [hk, ← hsplit]
    cases k with
    | zero => exact ⟨[], by simp⟩
    | succ k => exact ⟨_, by rw [List.replicate_succ, List.splitOn_append_cons_self]⟩
  obtain ⟨feeds, hfeeds⟩ := hfront
  rcases form_eq_header_literal s with hnone | ⟨hstyle, hform⟩
  · left
    rw [List.splitOn_eq_singleton hnone] at hfeeds
    exact (List.append_eq_nil_iff.mp (List.cons.inj hfeeds).2.symm).1
  · right
    have hheader : '\n' ∉ '|' :: literalSigns s.toList :=
      List.not_mem_cons_of_ne_of_not_mem (by decide) (newline_not_mem_literalSigns _)
    rw [hform, List.splitOn_append_cons_self_of_not_mem hheader] at hfeeds
    obtain ⟨rfl, hlines⟩ := List.cons.inj hfeeds
    refine ⟨List.cons_ne_nil _ _, fun line hmem => ?_⟩
    have hliteral : line ∈ (literalFrom true s.toList).splitOn '\n' := by
      rw [hlines]
      exact List.mem_append_left feeds hmem
    rcases isFurther_of_mem_literalFrom hliteral with hempty | hindented | ⟨c, hc, -, hend, hne⟩
    · exact Or.inl hempty
    · exact Or.inr hindented
    · -- the other breaks cannot be shown, so a text with one of them is not emitted over lines
      have hprintable := isPrintable_of_literal hstyle hc
      have hmem := mem_lineEnds_of_isLineEnd hend
      simp only [lineEnds, List.mem_cons, List.not_mem_nil, or_false] at hmem
      rcases hmem with rfl | rfl | rfl | rfl | rfl
      · exact absurd rfl hne
      · exact absurd hprintable (by decide)
      · exact absurd hprintable (by decide)
      · exact absurd hc hline
      · exact absurd hc hparagraph

/-! ## The end of a manifest -/

/-- Whether a text ends with a character that is no line feed. -/
def EndsInside (cs : List Char) : Prop :=
  ∃ front c, cs = front ++ [c] ∧ c ≠ '\n'

/-- A text ends as its back does. -/
theorem EndsInside.append {cs : List Char} (h : EndsInside cs) (front : List Char) :
    EndsInside (front ++ cs) := by
  obtain ⟨back, c, rfl, hc⟩ := h
  exact ⟨front ++ back, c, (List.append_assoc _ _ _).symm, hc⟩

/-- A text without line feeds ends inside its only line. -/
theorem endsInside_of_not_mem {cs : List Char} (hne : cs ≠ []) (h : '\n' ∉ cs) : EndsInside cs := by
  obtain ⟨front, c, rfl⟩ := (List.eq_nil_or_concat' cs).resolve_left hne
  refine ⟨front, c, rfl, ?_⟩
  rintro rfl
  exact h (List.mem_append_right front (List.mem_singleton_self _))

/-- A written text does not end with a line feed. -/
theorem EndsInside.append_written {front : List Char} (h : EndsInside front) (indent s : String) :
    EndsInside (front ++ (written indent s).toList) := by
  rw [written, String.toList_ofList]
  rcases List.eq_nil_or_concat' (dropEndFeeds (form s)) with hnil | ⟨back, c, hback⟩
  · rw [hnil]
    show EndsInside (front ++ [])
    rw [List.append_nil]
    exact h
  · have hc : c ≠ '\n' := by
      rintro rfl
      have hlast := getLast?_dropEndFeeds_ne (form s)
      rw [hback, List.getLast?_concat] at hlast
      exact hlast rfl
    refine EndsInside.append ⟨indentLines indent.toList back, c, ?_, hc⟩ front
    rw [hback, indentLines, List.flatMap_append, List.flatMap_singleton, if_neg hc]
    rfl

/-- Lines that are joined end inside the last of them. -/
theorem endsInside_intercalate {s : String} {ss : List String}
    (h : ∀ t ∈ s :: ss, EndsInside t.toList) : EndsInside ("\n".intercalate (s :: ss)).toList := by
  induction ss generalizing s with
  | nil =>
      rw [String.intercalate_singleton]
      exact h s List.mem_cons_self
  | cons t ss ih =>
      rw [String.intercalate_cons_cons, String.toList_append]
      exact (ih fun u hu => h u (List.mem_cons_of_mem s hu)).append _

/-- An entry ends inside its last line. -/
theorem endsInside_render {e : Entry} (h : e.keyLine.IsLine) : EndsInside e.render.toList := by
  cases e with
  | text key value =>
      have hkey : EndsInside (key ++ ": ").toList := by
        rw [String.toList_append]
        exact EndsInside.append ⟨[':'], ' ', rfl, by decide⟩ _
      rw [Entry.render, String.toList_append]
      exact hkey.append_written "" value
  | word key value =>
      have hvalue : EndsInside (" " ++ value).toList :=
        endsInside_of_not_mem (by simp) (h.rest_feed _ rfl)
      rw [render_word, String.toList_append]
      exact hvalue.append _
  | list key items =>
      refine endsInside_intercalate fun t ht => ?_
      rcases List.mem_cons.mp ht with rfl | ht
      · rw [String.toList_append]
        exact EndsInside.append ⟨[], ':', rfl, by decide⟩ _
      · obtain ⟨item, -, rfl⟩ := List.mem_map.mp ht
        have hdash : EndsInside "  - ".toList := ⟨[' ', ' ', '-'], ' ', rfl, by decide⟩
        rw [String.toList_append]
        exact hdash.append_written itemIndentation item

/-- No value forges the line of a key, and none displaces one: the lines of a manifest that start
with a character that is not blank are those of its keys, each of them once and in their order.
Where all texts are emitted over indented lines the same holds of the lines that do not start with a
space. A manifest ends with one line feed. -/
theorem keys_of_write (settings : Settings) (config : Config) :
    (∃ front, (write settings config).toList = front ++ ['\n'] ∧ EndsInside front) ∧
      ((keyLines config).map KeyLine.key).Nodup ∧
      List.Forall₂ KeyLine.Opens (keyLines config)
        (openLines Text.isBlank (write settings config)) ∧
      ((∀ s ∈ texts settings config, EmittedOverLines s) →
        List.Forall₂ KeyLine.Opens (keyLines config)
          (openLines (fun c => c = ' ') (write settings config))) := by
  have hes := isLine_keyLine settings config
  refine ⟨⟨_, String.toList_append, ?_⟩, nodup_keyLines config, ?_, fun hemitted => ?_⟩
  · obtain ⟨e, es, hentries⟩ := List.exists_cons_of_ne_nil (entries_ne_nil settings config)
    rw [hentries] at hes ⊢
    refine endsInside_intercalate fun t ht => ?_
    rw [← List.map_cons] at ht
    obtain ⟨e', he', rfl⟩ := List.mem_map.mp ht
    exact endsInside_render (hes e' he')
  · refine forall₂_opens_openLines rfl isBlank_of_isAlpha fun s _ => Hangs.dropEndFeeds ?_
    exact hangs_form rfl isBlank_of_isLineEnd s
  · refine forall₂_opens_openLines rfl ?_ fun s hs => (hemitted s hs).hangs
    intro c hc
    rw [decide_eq_false_iff_not]
    rintro rfl
    exact absurd hc (by decide)

/-- A project whose owner looks like a key on a line of its own. -/
def forgingProject : Config :=
  { Dag.threeTasks.toConfig with owner := "bob\nGPU: true" }

/-- An owner that looks like a key does not become one. -/
theorem keys_of_write_forgingProject :
    List.Forall₂ KeyLine.Opens [⟨"folder", none⟩, ⟨"stage", some " LIL"⟩, ⟨"ld_data", none⟩,
      ⟨"persoid", none⟩]
      (openLines (fun c => c = ' ') (write {} forgingProject)) := by
  have htexts : ∀ s ∈ texts {} forgingProject,
      lineSeparator ∉ s.toList ∧ paragraphSeparator ∉ s.toList := by decide +kernel
  obtain ⟨-, -, -, hlines⟩ := keys_of_write {} forgingProject
  exact hlines fun s hs => emittedOverLines_of_not_mem (htexts s hs).1 (htexts s hs).2

end DagScaffold.Manifest
