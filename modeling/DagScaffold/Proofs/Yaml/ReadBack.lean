import Mathlib
import DagScaffold.Proofs.Yaml.BlockScan

/-!
# What written texts are read as

A text that is written over indented lines loses the line feeds at its end when it is written, and
the reader puts back at most one of them. In a list its lines get more indentation, which becomes a
part of the text where the first line gives the depth of the others.

* `asText`, `asItem` : what a text is read as in the value of a key and in an item of a list;
* `asText_eq_self_iff`, `asItem_eq_self_iff` : the texts that are read as they were written;
* `asText_asText` : what was read is read again as it is;
* `block_text`, `block_item` : reading the written form of a text over lines.
-/

namespace DagScaffold.Yaml

open Written

/-! ## Texts without the line feeds at their end -/

/-- Line feeds at the end are dropped, however many they are. -/
theorem dropEndFeeds_append_replicate (cs : List Char) (k : Nat) :
    dropEndFeeds (cs ++ List.replicate k '\n') = dropEndFeeds cs := by
  induction k with
  | zero => rw [List.replicate_zero, List.append_nil]
  | succ k ih =>
      rw [List.replicate_succ', ← List.append_assoc, dropEndFeeds, List.reverse_append]
      exact ih

/-- A text that does not end with a line feed keeps its end. -/
theorem dropEndFeeds_eq_self_of_getLast? {cs : List Char} (h : cs.getLast? ≠ some '\n') :
    dropEndFeeds cs = cs := by
  have hdrop : cs.reverse.dropWhile (· = '\n') = cs.reverse := by
    rw [← List.head?_reverse] at h
    cases hrev : cs.reverse with
    | nil => rfl
    | cons c ds =>
        rw [hrev] at h
        have hc : c ≠ '\n' := fun heq => h (heq ▸ rfl)
        rw [List.dropWhile_cons_of_neg (by simpa using hc)]
  rw [dropEndFeeds, hdrop, List.reverse_reverse]

theorem dropEndFeeds_eq_self_of_any {cs : List Char} (h : cs.getLast?.any isLineEnd = false) :
    dropEndFeeds cs = cs := by
  refine dropEndFeeds_eq_self_of_getLast? fun heq => ?_
  rw [heq] at h
  cases h

/-- Line feeds at the end of a text over lines are written as they are. -/
theorem literalFrom_append_replicate (opensLine : Bool) (cs : List Char) (k : Nat) :
    literalFrom opensLine (cs ++ List.replicate k '\n') =
      literalFrom opensLine cs ++ List.replicate k '\n' := by
  induction cs generalizing opensLine with
  | nil =>
      induction k generalizing opensLine with
      | zero => rfl
      | succ k ih =>
          rw [List.nil_append, List.replicate_succ]
          exact congrArg ('\n' :: ·) (ih true)
  | cons c cs ih =>
      rw [List.cons_append, literalFrom, literalFrom]
      split_ifs
      · rw [ih, List.cons_append]
      · rw [ih]
        rfl
      · rw [ih]
        rfl

/-- A text over lines is written with its last character at the end. -/
theorem getLast?_literalFrom {opensLine : Bool} {cs : List Char} (hne : cs ≠ []) :
    (literalFrom opensLine cs).getLast? = cs.getLast? := by
  induction cs generalizing opensLine with
  | nil => exact absurd rfl hne
  | cons c cs ih =>
      have hcons (b : Bool) : (c :: literalFrom b cs).getLast? = (c :: cs).getLast? := by
        cases cs with
        | nil => rfl
        | cons d ds => rw [List.getLast?_cons, List.getLast?_cons, ih (List.cons_ne_nil d ds)]
      rw [literalFrom]
      split_ifs
      · exact hcons true
      · rw [List.getLast?_append_of_ne_nil _ (List.cons_ne_nil _ _)]
        exact hcons false
      · exact hcons false

/-- The written form of a text over lines, without the line feeds at its end. -/
theorem dropEndFeeds_literal (cs : List Char) :
    dropEndFeeds ('|' :: literalSigns cs ++ '\n' :: literalFrom true cs) =
      '|' :: literalSigns cs ++
        if dropEndFeeds cs = [] then [] else '\n' :: literalFrom true (dropEndFeeds cs) := by
  obtain ⟨k, hk⟩ := exists_eq_dropEndFeeds cs
  have hfeeds : '|' :: literalSigns cs ++ '\n' :: literalFrom true cs =
      ('|' :: literalSigns cs ++ '\n' :: literalFrom true (dropEndFeeds cs)) ++
        List.replicate k '\n' := by
    conv_lhs => rw [hk, literalFrom_append_replicate, ← hk]
    simp
  rw [hfeeds, dropEndFeeds_append_replicate]
  by_cases hnil : dropEndFeeds cs = []
  · -- nothing but the first line is left
    have hheader : '\n' ∉ '|' :: literalSigns cs :=
      List.not_mem_cons_of_ne_of_not_mem (by decide) (newline_not_mem_literalSigns cs)
    rw [if_pos hnil, hnil, List.append_nil]
    exact (dropEndFeeds_append_replicate _ 1).trans (dropEndFeeds_eq_self hheader)
  · obtain ⟨d, hd⟩ := Option.ne_none_iff_exists'.mp (mt List.getLast?_eq_none_iff.mp hnil)
    rw [if_neg hnil, dropEndFeeds_eq_self_of_getLast?]
    rw [List.getLast?_append_of_ne_nil _ (List.cons_ne_nil _ _), List.getLast?_cons,
      getLast?_literalFrom hnil, hd, Option.getD_some, ← hd]
    exact getLast?_dropEndFeeds_ne cs

/-- A text over lines is written as a bar, its signs, and its lines with the indentation. -/
theorem toList_written_of_literal {s : String} (h : style s = .literal) (indent : String) :
    (written indent s).toList =
      '|' :: (literalSigns s.toList ++
        if dropEndFeeds s.toList = [] then []
        else '\n' :: (indent.toList ++
          indentLines indent.toList (literalFrom true (dropEndFeeds s.toList)))) := by
  have hform : form s = '|' :: literalSigns s.toList ++ '\n' :: literalFrom true s.toList := by
    unfold form
    rw [h]
  have hheader : '\n' ∉ '|' :: literalSigns s.toList :=
    List.not_mem_cons_of_ne_of_not_mem (by decide) (newline_not_mem_literalSigns s.toList)
  rw [written, String.toList_ofList, hform, dropEndFeeds_literal, indentLines, List.flatMap_append,
    ← indentLines, ← indentLines, indentLines_eq_self hheader]
  split_ifs
  · rfl
  · rfl

theorem exists_written_eq_cons {s : String} (h : style s = .literal) (indent : String) :
    ∃ more, (written indent s).toList = '|' :: more :=
  ⟨_, toList_written_of_literal h indent⟩

theorem mem_of_mem_dropEndFeeds {cs : List Char} {c : Char} (h : c ∈ dropEndFeeds cs) : c ∈ cs := by
  obtain ⟨k, hk⟩ := exists_eq_dropEndFeeds cs
  rw [hk]
  exact List.mem_append_left _ h

/-- A text over lines is written with its own characters and spaces. -/
theorem mem_literalFrom {opensLine : Bool} {cs : List Char} {d : Char}
    (h : d ∈ literalFrom opensLine cs) :
    d ∈ cs ∨ d = ' ' := by
  induction cs generalizing opensLine with
  | nil => exact .inl h
  | cons c cs ih =>
      have hcons {b : Bool} (h : d ∈ c :: literalFrom b cs) : d ∈ c :: cs ∨ d = ' ' := by
        rcases List.mem_cons.mp h with rfl | h
        · exact .inl List.mem_cons_self
        · exact (ih h).imp_left (List.mem_cons_of_mem c)
      rw [literalFrom] at h
      split_ifs at h
      · exact hcons h
      · rcases List.mem_append.mp h with h | h
        · exact .inr (by simpa using h)
        · exact hcons h
      · exact hcons h

/-- Indented lines hold the characters of the lines and of the indentation. -/
theorem mem_indentLines {indent cs : List Char} {d : Char} (h : d ∈ indentLines indent cs) :
    d ∈ cs ∨ d ∈ indent := by
  obtain ⟨c, hc, hd⟩ := List.mem_flatMap.mp h
  split_ifs at hd with hfeed
  · rcases List.mem_cons.mp hd with rfl | hd
    · exact .inl (hfeed ▸ hc)
    · exact .inr hd
  · exact .inl (List.mem_singleton.mp hd ▸ hc)

/-- The signs behind the bar are printable. -/
theorem isPrintable_of_mem_literalSigns {cs : List Char} {c : Char} (h : c ∈ literalSigns cs) :
    isPrintable c = true := by
  have hsigns : c = '2' ∨ c = '-' ∨ c = '+' := by
    unfold literalSigns at h
    split_ifs at h <;> simp at h <;> tauto
  rcases hsigns with rfl | rfl | rfl <;> decide

/-- A text over lines is written in printable characters. -/
theorem isPrintable_of_mem_written {s indent : String} {c : Char} (h : style s = .literal)
    (hindent : ∀ d ∈ indent.toList, isPrintable d = true) (hc : c ∈ (written indent s).toList) :
    isPrintable c = true := by
  rw [toList_written_of_literal h, List.mem_cons, List.mem_append] at hc
  rcases hc with rfl | hc | hc
  · decide
  · exact isPrintable_of_mem_literalSigns hc
  · split_ifs at hc
    · exact absurd hc List.not_mem_nil
    · rcases List.mem_cons.mp hc with rfl | hc
      · decide
      · rcases List.mem_append.mp hc with hc | hc
        · exact hindent c hc
        · rcases mem_indentLines hc with hc | hc
          · rcases mem_literalFrom hc with hc | rfl
            · exact isPrintable_of_literal h (mem_of_mem_dropEndFeeds hc)
            · decide
          · exact hindent c hc

/-! ## What is read -/

/-- What is read of a text over lines in the value of a key: of the line feeds at its end one is
left if the text is to keep its breaks. -/
def readLines (cs : List Char) : List Char :=
  if keepsBreaks cs then if dropEndFeeds cs = [] then [] else dropEndFeeds cs ++ ['\n'] else cs

/-- What is read of a text over lines in an item: one of the line feeds at its end is left, and the
blanks that open its lines are read with a text that opens with a space or a break. -/
def readItemLines (cs : List Char) : List Char :=
  if dropEndFeeds cs = [] then []
  else
    (if opensDeeper cs then literalFrom true (dropEndFeeds cs) else dropEndFeeds cs) ++
      if dropEndFeeds cs = cs then [] else ['\n']

/-- What a text is read as in the value of a key. -/
def asText (s : String) : String :=
  if style s = .literal then .ofList (readLines s.toList) else s

/-- What a text is read as in an item of a list, if all its breaks are line feeds. -/
def asItem (s : String) : String :=
  if style s = .literal then .ofList (readItemLines s.toList) else s

/-- Whether the lines of a text that is written over lines are divided by line feeds only. -/
def DividedByFeeds (s : String) : Prop :=
  style s = .literal → ∀ c ∈ s.toList, isLineEnd c = true → c = '\n'

-- the instance for lists, since the one for all characters tries each of them
instance : DecidablePred DividedByFeeds := fun s =>
  haveI : Decidable (∀ c ∈ s.toList, isLineEnd c = true → c = '\n') := List.decidableBAll _ _
  inferInstanceAs (Decidable (style s = .literal → ∀ c ∈ s.toList, isLineEnd c = true → c = '\n'))

/-! ## The breaks that are kept -/

/-- The line ends at the end of a text are kept when there are two of them. -/
theorem keepsBreaks_concat (cs : List Char) (c : Char) :
    keepsBreaks (cs ++ [c]) = (isLineEnd c && cs.getLast?.all isLineEnd) := by
  rw [keepsBreaks, List.reverse_append, ← List.head?_reverse]
  cases cs.reverse <;> simp

/-- A text of nothing but breaks is to keep them. -/
theorem keepsBreaks_of_all {cs : List Char} (hne : cs ≠ []) (hall : cs.all isLineEnd = true) :
    keepsBreaks cs = true := by
  rcases List.eq_nil_or_concat' cs with rfl | ⟨ds, e, rfl⟩
  · exact absurd rfl hne
  have hmem := List.all_eq_true.mp hall
  rw [keepsBreaks_concat, hmem e List.mem_concat_self, Bool.true_and]
  cases hlast : ds.getLast? with
  | none => rfl
  | some d => exact hmem d (List.mem_append_left _ (List.mem_of_getLast? hlast))

/-- A text of line ends only keeps all of them. -/
theorem chomp_headerOf_of_all {cs : List Char} (hne : cs ≠ []) (hall : cs.all isLineEnd = true) :
    (headerOf cs).chomp = .keep := by
  have hlast : cs.getLast?.any isLineEnd = true := by
    rw [List.getLast?_eq_some_getLast hne]
    exact List.all_eq_true.mp hall _ (List.getLast_mem hne)
  rw [headerOf, hlast, keepsBreaks_of_all hne hall]
  rfl

/-- Only line feeds have been dropped. -/
theorem all_isLineEnd_of_dropEndFeeds {cs : List Char}
    (h : (dropEndFeeds cs).all isLineEnd = true) :
    cs.all isLineEnd = true := by
  obtain ⟨k, hk⟩ := exists_eq_dropEndFeeds cs
  rw [hk, List.all_append, h, Bool.true_and]
  exact List.all_eq_true.mpr fun c hc => by rw [List.eq_of_mem_replicate hc]; rfl

/-- The last character that is left is no line feed. -/
theorem all_isLineEnd_eq_false {cs ds : List Char} (hne : dropEndFeeds cs ≠ [])
    (hlast : ds.getLast? = (dropEndFeeds cs).getLast?)
    (hfeeds : ∀ c ∈ ds, isLineEnd c = true → c = '\n') : ds.all isLineEnd = false := by
  obtain ⟨d, hd⟩ := Option.ne_none_iff_exists'.mp (mt List.getLast?_eq_none_iff.mp hne)
  have hmem : d ∈ ds := List.mem_of_getLast? (hlast.trans hd)
  refine Bool.eq_false_of_not_eq_true fun hall => getLast?_dropEndFeeds_ne cs ?_
  rw [hd, hfeeds d hmem (List.all_eq_true.mp hall d hmem)]

/-- A text of line feeds only opens with a line feed. -/
theorem opensDeeper_of_dropEndFeeds_eq_nil {cs : List Char} (hne : cs ≠ [])
    (hnil : dropEndFeeds cs = []) :
    opensDeeper cs = true := by
  obtain ⟨k, hk⟩ := exists_eq_dropEndFeeds cs
  rw [hnil, List.nil_append] at hk
  cases k with
  | zero => exact absurd hk hne
  | succ k =>
      rw [hk]
      rfl

/-- A text that is written over lines has a line feed. -/
theorem newline_mem_of_literal {s : String} (h : style s = .literal) : '\n' ∈ s.toList := by
  unfold style at h
  dsimp only at h
  split_ifs at h
  assumption

/-- What is chomped of a text without the line feeds at its end is what is read. -/
theorem chomped_dropEndFeeds {cs : List Char} (hne : dropEndFeeds cs ≠ []) :
    chomped (headerOf cs).chomp (dropEndFeeds cs) = readLines cs := by
  unfold headerOf readLines
  rcases List.eq_nil_or_concat' cs with rfl | ⟨ds, e, rfl⟩
  · exact absurd rfl hne
  rw [List.getLast?_concat, Option.any_some, keepsBreaks_concat]
  by_cases hend : isLineEnd e = true
  · by_cases hkeep : ds.getLast?.all isLineEnd = true
    · simp only [hend, hkeep, hne, Bool.and_self, Bool.not_true, Bool.false_eq_true, if_true,
        if_false]
      exact chomped_keep _
    · -- a single break ends the text, and it is kept
      have hkeep := Bool.eq_false_of_not_eq_true hkeep
      have hlast : ds.getLast?.any isLineEnd = false := by
        cases hds : ds.getLast? <;> simp_all
      simp only [hend, hkeep, Bool.and_false, Bool.not_true, Bool.false_eq_true, if_false]
      by_cases hfeed : e = '\n'
      · have hdrop : dropEndFeeds (ds ++ ['\n']) = ds :=
          (dropEndFeeds_append_replicate ds 1).trans (dropEndFeeds_eq_self_of_any hlast)
        rw [hfeed, hdrop, chomped_of_getLast? hlast]
        rfl
      · have hlast' : (ds ++ [e]).getLast? ≠ some '\n' := by
          rw [List.getLast?_concat]
          exact fun heq => hfeed (Option.some.inj heq)
        rw [dropEndFeeds_eq_self_of_getLast? hlast', chomped_append hlast]
        simp [chomped, hend, Chomp.kept]
  · -- nothing is dropped or chomped of a text that ends within a line
    have hend := Bool.eq_false_of_not_eq_true hend
    have hlast : (ds ++ [e]).getLast?.any isLineEnd = false := by
      rw [List.getLast?_concat]
      exact hend
    simp only [hend, Bool.false_and, Bool.not_false, Bool.false_eq_true, if_true, if_false]
    rw [dropEndFeeds_eq_self_of_any hlast, chomped_of_getLast? hlast]
    exact List.append_nil _

/-- The same for a text all of whose breaks are line feeds, over which further blanks may stand. -/
theorem chomped_of_feeds {cs ds : List Char} (hfeeds : ∀ c ∈ cs, isLineEnd c = true → c = '\n')
    (hds : ds.getLast? = (dropEndFeeds cs).getLast?) :
    chomped (headerOf cs).chomp ds = ds ++ if dropEndFeeds cs = cs then [] else ['\n'] := by
  have hlast : ds.getLast?.any isLineEnd = false := by
    rw [hds]
    cases hlast : (dropEndFeeds cs).getLast? with
    | none => rfl
    | some c =>
        refine Bool.eq_false_of_not_eq_true fun hend => getLast?_dropEndFeeds_ne cs ?_
        rw [hlast, hfeeds c (mem_of_mem_dropEndFeeds (List.mem_of_getLast? hlast)) hend]
  have hends : cs.getLast?.any isLineEnd = true ↔ dropEndFeeds cs ≠ cs := by
    refine ⟨fun hend heq => ?_, fun hne => ?_⟩
    · obtain ⟨c, hc, hend⟩ := (Option.any_eq_true _ _).mp hend
      refine getLast?_dropEndFeeds_ne cs ?_
      rw [heq, hc, hfeeds c (List.mem_of_getLast? hc) hend]
    · by_contra hend
      refine hne (dropEndFeeds_eq_self_of_getLast? fun heq => hend ?_)
      rw [heq]
      rfl
  rw [chomped_of_getLast? hlast]
  unfold headerOf
  by_cases heq : dropEndFeeds cs = cs
  · have hend := Bool.eq_false_of_not_eq_true (mt hends.mp (not_not.mpr heq))
    rw [if_pos heq, hend]
    rfl
  · rw [if_neg heq, hends.mpr heq, Bool.not_true, if_neg Bool.false_ne_true]
    cases keepsBreaks cs <;> rfl

/-! ## Texts that are read as they were written -/

/-- Of a text with one line feed at its end the line feed is dropped. -/
theorem dropEndFeeds_concat_eq_self {cs : List Char} {d : Char} (h : d ≠ '\n') :
    dropEndFeeds (cs ++ [d, '\n']) = cs ++ [d] := by
  have hlast : (cs ++ [d]).getLast? ≠ some '\n' := by
    rw [List.getLast?_concat]
    exact fun heq => h (Option.some.inj heq)
  have happend : cs ++ [d, '\n'] = (cs ++ [d]) ++ List.replicate 1 '\n' := by simp
  rw [happend, dropEndFeeds_append_replicate, dropEndFeeds_eq_self_of_getLast? hlast]

/-- Without the line feeds at its end a text ends with another character. -/
theorem exists_concat_dropEndFeeds {cs : List Char} (hne : dropEndFeeds cs ≠ []) :
    ∃ ds d, d ≠ '\n' ∧ dropEndFeeds cs = ds ++ [d] := by
  rcases List.eq_nil_or_concat' (dropEndFeeds cs) with hnil | ⟨ds, d, hconcat⟩
  · exact absurd hnil hne
  refine ⟨ds, d, ?_, hconcat⟩
  rintro rfl
  refine getLast?_dropEndFeeds_ne cs ?_
  rw [hconcat, List.getLast?_concat]

/-- Whether the breaks at the end of a text are read back: it is not to keep several of them, or it
ends in a single line feed after a character that is none. -/
def KeepsEnd (cs : List Char) : Prop :=
  keepsBreaks cs = true → ∃ ds d, d ≠ '\n' ∧ cs = ds ++ [d, '\n']

/-- The lines of a text are read back as they are when the text keeps its end. -/
theorem readLines_eq_self_iff {cs : List Char} (hne : cs ≠ []) :
    readLines cs = cs ↔ KeepsEnd cs := by
  unfold readLines KeepsEnd
  by_cases hkeep : keepsBreaks cs = true
  · rw [if_pos hkeep]
    refine ⟨fun heq _ => ?_, fun hend => ?_⟩
    · split_ifs at heq with hnil
      · exact absurd heq.symm hne
      · obtain ⟨ds, d, hd, hconcat⟩ := exists_concat_dropEndFeeds hnil
        refine ⟨ds, d, hd, ?_⟩
        rw [← heq, hconcat, List.append_assoc]
        rfl
    · obtain ⟨ds, d, hd, rfl⟩ := hend hkeep
      rw [dropEndFeeds_concat_eq_self hd, if_neg (by simp), List.append_assoc]
      rfl
  · simp [hkeep]

/-- What is read otherwise over lines is read as it was written when its lines are. -/
theorem ite_literal_eq_self_iff (s : String) (read : List Char → List Char) :
    (if style s = .literal then .ofList (read s.toList) else s) = s ↔
      (style s = .literal → read s.toList = s.toList) := by
  by_cases hstyle : style s = .literal
  · rw [if_pos hstyle, ← String.toList_inj, String.toList_ofList]
    exact ⟨fun h _ => h, fun h => h hstyle⟩
  · rw [if_neg hstyle]
    exact ⟨fun _ h => absurd h hstyle, fun _ => rfl⟩

/-- In the value of a key all texts are read as they were written but those over lines that lose
breaks at their end. -/
theorem asText_eq_self_iff (s : String) :
    asText s = s ↔ (style s = .literal → KeepsEnd s.toList) := by
  rw [asText, ite_literal_eq_self_iff]
  refine forall_congr' fun hstyle => ?_
  exact readLines_eq_self_iff (List.ne_nil_of_mem (newline_mem_of_literal hstyle))

/-- The lines of a text have more spaces than the text. -/
theorem count_space_literalFrom (opensLine : Bool) (cs : List Char) :
    cs.count ' ' + (if opensLine && !cs.all isLineEnd then 2 else 0) ≤
      (literalFrom opensLine cs).count ' ' := by
  induction cs generalizing opensLine with
  | nil => cases opensLine <;> exact Nat.le_refl 0
  | cons c cs ih =>
      have hless (b : Bool) : cs.count ' ' ≤ (literalFrom b cs).count ' ' :=
        (Nat.le_add_right _ _).trans (ih b)
      rw [literalFrom]
      by_cases hend : isLineEnd c = true
      · have hall : (c :: cs).all isLineEnd = cs.all isLineEnd := by
          rw [List.all_cons, hend, Bool.true_and]
        rw [if_pos hend, hall, List.count_cons, List.count_cons]
        cases opensLine with
        | false =>
            have hcount := hless true
            simp only [Bool.false_and, Bool.false_eq_true, if_false]
            omega
        | true =>
            have hcount := ih true
            omega
      · have hcount := hless false
        rw [if_neg hend, List.count_append, List.count_cons, List.count_cons]
        cases opensLine with
        | false =>
            simp only [Bool.false_and, Bool.false_eq_true, if_false]
            omega
        | true =>
            have hopening : [' ', ' '].count ' ' = 2 := rfl
            rw [if_pos rfl, hopening]
            split_ifs <;> omega

/-- The lines of an item are read back as they are when the text opens no deeper and keeps its end.
-/
theorem readItemLines_eq_self_iff {cs : List Char} (hne : cs ≠ [])
    (hfeeds : ∀ c ∈ cs, isLineEnd c = true → c = '\n') :
    readItemLines cs = cs ↔ opensDeeper cs = false ∧ KeepsEnd cs := by
  by_cases hnil : dropEndFeeds cs = []
  · -- nothing is left of line feeds, the first of which opens the text
    rw [readItemLines, if_pos hnil, opensDeeper_of_dropEndFeeds_eq_nil hne hnil]
    exact iff_of_false (fun heq => hne heq.symm) (fun h => Bool.noConfusion h.1)
  · by_cases hdeeper : opensDeeper cs = true
    · refine iff_of_false (fun heq => ?_) (fun h => ?_)
      · -- the blanks that are read with the lines are too many
        obtain ⟨k, hk⟩ := exists_eq_dropEndFeeds cs
        have hall := all_isLineEnd_eq_false hnil rfl fun c hc =>
          hfeeds c (mem_of_mem_dropEndFeeds hc)
        have hmore := count_space_literalFrom true (dropEndFeeds cs)
        have hcount := congrArg (List.count ' ') heq
        have hsame := congrArg (List.count ' ') hk
        rw [readItemLines, if_neg hnil, if_pos hdeeper, List.count_append] at hcount
        rw [List.count_append, List.count_replicate] at hsame
        simp only [hall, Bool.not_false, Bool.and_self, if_true] at hmore
        simp at hsame
        omega
      · rw [hdeeper] at h
        cases h.1
    · have hsame : readItemLines cs = readLines cs := by
        rw [readItemLines, if_neg hnil, if_neg hdeeper, ← chomped_of_feeds hfeeds rfl,
          chomped_dropEndFeeds hnil]
      rw [hsame, readLines_eq_self_iff hne, Bool.eq_false_of_not_eq_true hdeeper]
      exact (and_iff_right rfl).symm

/-- In an item all texts are read as they were written but those over lines that lose breaks at
their end or open with a space or a break, if their breaks are line feeds. -/
theorem asItem_eq_self_iff {s : String} (hfeeds : DividedByFeeds s) :
    asItem s = s ↔ (style s = .literal → opensDeeper s.toList = false ∧ KeepsEnd s.toList) := by
  rw [asItem, ite_literal_eq_self_iff]
  refine forall_congr' fun hstyle => ?_
  exact readItemLines_eq_self_iff (List.ne_nil_of_mem (newline_mem_of_literal hstyle))
    (hfeeds hstyle)

/-! ## Texts that are read again -/

theorem dropEndFeeds_dropEndFeeds (cs : List Char) :
    dropEndFeeds (dropEndFeeds cs) = dropEndFeeds cs :=
  dropEndFeeds_eq_self_of_getLast? (getLast?_dropEndFeeds_ne cs)

/-- A character that is no line feed stays. -/
theorem mem_dropEndFeeds {cs : List Char} {c : Char} (h : c ∈ cs) (hc : c ≠ '\n') :
    c ∈ dropEndFeeds cs := by
  obtain ⟨k, hk⟩ := exists_eq_dropEndFeeds cs
  rw [hk] at h
  rcases List.mem_append.mp h with h | h
  · exact h
  · exact absurd (List.eq_of_mem_replicate h) hc

/-- The line feeds at the end of two texts are those of the second one, if it has other characters.
-/
theorem dropEndFeeds_append {cs : List Char} (h : dropEndFeeds cs ≠ []) (front : List Char) :
    dropEndFeeds (front ++ cs) = front ++ dropEndFeeds cs := by
  obtain ⟨k, hk⟩ := exists_eq_dropEndFeeds cs
  have hlast : (front ++ dropEndFeeds cs).getLast? ≠ some '\n' := by
    rw [List.getLast?_append_of_ne_nil _ h]
    exact getLast?_dropEndFeeds_ne cs
  conv_lhs => rw [hk, ← List.append_assoc, dropEndFeeds_append_replicate]
  exact dropEndFeeds_eq_self_of_getLast? hlast

/-- A text is opened by the same character without the line feeds at its end. -/
theorem head?_dropEndFeeds_eq_some_iff {cs : List Char} {c : Char} (hc : c ≠ '\n') :
    (dropEndFeeds cs).head? = some c ↔ cs.head? = some c := by
  obtain ⟨k, hk⟩ := exists_eq_dropEndFeeds cs
  rcases hdrop : dropEndFeeds cs with _ | ⟨d, ds⟩
  · rw [hdrop, List.nil_append] at hk
    rw [hk]
    constructor
    · intro h
      cases h
    · intro h
      exact absurd (List.eq_of_mem_replicate (List.mem_of_mem_head? h)) hc
  · rw [hk, hdrop]
    rfl

/-- What a text is read as has the same characters up to the line feeds at its end. -/
theorem dropEndFeeds_asText (s : String) :
    dropEndFeeds (asText s).toList = dropEndFeeds s.toList := by
  unfold asText
  split_ifs
  · rw [String.toList_ofList, readLines]
    split_ifs with hkeep hnil
    · exact hnil.symm
    · exact (dropEndFeeds_append_replicate _ 1).trans (dropEndFeeds_dropEndFeeds _)
    · rfl
  · rfl

/-- What was read once is read as it was written. -/
theorem asText_asText (s : String) : asText (asText s) = asText s := by
  rw [asText_eq_self_iff]
  intro hstyle
  by_cases hliteral : style s = .literal
  · have hread : (asText s).toList = readLines s.toList := by
      rw [asText, if_pos hliteral, String.toList_ofList]
    have hne : readLines s.toList ≠ [] := by
      rw [← hread]
      exact List.ne_nil_of_mem (newline_mem_of_literal hstyle)
    rw [hread]
    unfold readLines at hne ⊢
    split_ifs at hne ⊢ with hkeep hnil
    · exact absurd rfl hne
    · -- one line feed is left behind a character that is none
      intro _
      obtain ⟨ds, d, hd, hconcat⟩ := exists_concat_dropEndFeeds hnil
      exact ⟨ds, d, hd, by rw [hconcat, List.append_assoc]; rfl⟩
    · intro h
      exact absurd h hkeep
  · have hsame : asText s = s := if_neg hliteral
    rw [hsame] at hstyle
    exact absurd hstyle hliteral

/-- What is read of an item holds its own characters, spaces and line feeds. -/
theorem mem_readItemLines {cs : List Char} {c : Char} (h : c ∈ readItemLines cs) :
    c ∈ cs ∨ c = ' ' ∨ c = '\n' := by
  unfold readItemLines at h
  by_cases hnil : dropEndFeeds cs = []
  · rw [if_pos hnil] at h
    exact absurd h List.not_mem_nil
  · rw [if_neg hnil] at h
    rcases List.mem_append.mp h with hlines | hfeed
    · split_ifs at hlines
      · exact (mem_literalFrom hlines).imp mem_of_mem_dropEndFeeds .inl
      · exact .inl (mem_of_mem_dropEndFeeds hlines)
    · split_ifs at hfeed
      · exact absurd hfeed List.not_mem_nil
      · exact .inr (.inr (List.mem_singleton.mp hfeed))

/-- No other break comes into an item when it is read. -/
theorem DividedByFeeds.asItem {s : String} (h : DividedByFeeds s) : DividedByFeeds (asItem s) := by
  by_cases hliteral : style s = .literal
  · intro _ c hc hend
    rw [Yaml.asItem, if_pos hliteral, String.toList_ofList] at hc
    rcases mem_readItemLines hc with hc | rfl | rfl
    · exact h hliteral c hc hend
    · exact absurd hend (by decide)
    · rfl
  · have hsame : Yaml.asItem s = s := if_neg hliteral
    rw [hsame]
    exact h

/-! ## Reading written forms -/

section Reading

variable {s : String} {j : Nat} {rest : List Char} {p : Place}

/-- A text over lines is read from the lines that are left of it, if any are. -/
theorem block_written {indent : String} {margin : Nat} {value : List Char} (h : style s = .literal)
    (hj : j < margin) (hgo : goesOn rest = true) (hnil : dropEndFeeds s.toList = [] → value = [])
    (hlines : dropEndFeeds s.toList ≠ [] → ∀ line₀, ∃ line, line₀ < line ∧
      blockLines false margin (headerOf s.toList) ⟨line₀, 0⟩
          (indent.toList ++ (indentLines indent.toList (literalFrom true (dropEndFeeds s.toList)) ++
            '\n' :: (List.replicate j ' ' ++ rest))) =
        .ok ⟨value, ⟨line, j⟩, rest⟩) :
    ∃ line, p.line < line ∧
      block false margin p
          ((written indent s).toList.tail ++ '\n' :: (List.replicate j ' ' ++ rest)) =
        .ok ⟨value, ⟨line, j⟩, rest⟩ := by
  rw [toList_written_of_literal h, List.tail_cons, List.append_assoc]
  by_cases hempty : dropEndFeeds s.toList = []
  · -- only the first line is left, and it says how deep the lines would be
    refine ⟨p.line + 1, Nat.lt_succ_self _, ?_⟩
    have hdeeper : opensDeeper s.toList = true :=
      opensDeeper_of_dropEndFeeds_eq_nil (List.ne_nil_of_mem (newline_mem_of_literal h)) hempty
    rw [if_pos hempty, List.nil_append, block_eq_blockLines, blockLines, headerOf, hdeeper,
      hnil hempty]
    show blockFrom _ _ _ _ = _
    rw [blockFrom_end (by show j < margin - 1 + 2; omega) hgo]
    split_ifs <;> rfl
  · obtain ⟨line, hline, hread⟩ := hlines hempty (p.line + 1)
    refine ⟨line, Nat.lt_of_succ_lt hline, ?_⟩
    rw [if_neg hempty, List.cons_append, List.append_assoc, block_eq_blockLines]
    exact hread

/-- A text that opens no deeper opens with a character that is neither a space nor a line end. -/
theorem opensDeeper_eq_false {c : Char} {cs : List Char} (h : opensDeeper (c :: cs) = false) :
    isLineEnd c = false ∧ c ≠ ' ' := by
  simp only [opensDeeper, isSpace, List.head?_cons, Option.any_some, Bool.or_eq_false_iff,
    decide_eq_false_iff_not] at h
  exact h.symm

/-- The first line of what is left of a text is its own. -/
theorem opensDeeper_dropEndFeeds {cs : List Char} (hne : dropEndFeeds cs ≠ []) :
    opensDeeper cs = opensDeeper (dropEndFeeds cs) := by
  obtain ⟨k, hk⟩ := exists_eq_dropEndFeeds cs
  obtain ⟨c, ds, hcons⟩ := List.exists_cons_of_ne_nil hne
  conv_lhs => rw [hk]
  rw [hcons]
  rfl

/-- A text over lines is printable up to the line feeds at its end. -/
theorem isPrintable_of_mem_dropEndFeeds (h : style s = .literal) :
    ∀ c ∈ dropEndFeeds s.toList, isPrintable c = true :=
  fun _ hc => isPrintable_of_literal h (mem_of_mem_dropEndFeeds hc)

/-- In the value of a key a text over lines is read up to the next key. -/
theorem block_text (h : style s = .literal) (hj : j < 1) (hgo : goesOn rest = true) :
    ∃ line, p.line < line ∧
      block false 1 p ((written "" s).toList.tail ++ '\n' :: (List.replicate j ' ' ++ rest)) =
        .ok ⟨(asText s).toList, ⟨line, j⟩, rest⟩ := by
  have hvalue : (asText s).toList = readLines s.toList := by
    rw [asText, if_pos h, String.toList_ofList]
  have hprint := isPrintable_of_mem_dropEndFeeds h
  have hempty : s.toList ≠ [] := List.ne_nil_of_mem (newline_mem_of_literal h)
  refine block_written h hj hgo (fun hnil => ?_) (fun hne line₀ => ?_)
  · -- line feeds alone are to be kept, but none of them is left
    have hall := @all_isLineEnd_of_dropEndFeeds s.toList (by rw [hnil]; rfl)
    rw [hvalue, readLines, if_pos (keepsBreaks_of_all hempty hall), if_pos hnil]
  · rw [hvalue, ← chomped_dropEndFeeds hne]
    show ∃ line, line₀ < line ∧ blockLines false 1 (headerOf s.toList) ⟨line₀, 0⟩
      (List.replicate 0 ' ' ++
      (indentLines [] (literalFrom true (dropEndFeeds s.toList)) ++ _)) = _
    rw [indentLines_eq_laid true (.inl rfl), laid_literalFrom]
    by_cases hdeeper : opensDeeper s.toList = true
    · have hheader : headerOf s.toList = ⟨(headerOf s.toList).chomp, some 2⟩ := by
        rw [headerOf, if_pos hdeeper]
      have hread : chompedAfter (headerOf s.toList).chomp [] [] (dropEndFeeds s.toList) =
          chomped (headerOf s.toList).chomp (dropEndFeeds s.toList) :=
        chompedAfter_nil fun hall =>
          chomp_headerOf_of_all hempty (all_isLineEnd_of_dropEndFeeds hall)
      rw [hheader]
      exact @blockLines_some 0 2 j rest 1 line₀ _ _ rfl hj hgo hprint hread
    · have hheader : headerOf s.toList = ⟨(headerOf s.toList).chomp, none⟩ := by
        rw [headerOf, if_neg hdeeper]
      obtain ⟨c, ds, hcons⟩ := List.exists_cons_of_ne_nil hne
      rw [opensDeeper_dropEndFeeds hne, hcons] at hdeeper
      obtain ⟨hend, hspace⟩ := opensDeeper_eq_false (Bool.eq_false_of_not_eq_true hdeeper)
      rw [hcons] at hprint
      rw [hheader, hcons]
      exact @blockLines_none 0 2 j rest 1 line₀ _ c ds (by decide) hj hgo hprint hend hspace

/-- In an item a text over lines whose breaks are line feeds is read up to the next item or key. -/
theorem block_item (h : style s = .literal) (hfeeds : ∀ c ∈ s.toList, isLineEnd c = true → c = '\n')
    (hj : j < 3) (hgo : goesOn rest = true) :
    ∃ line, p.line < line ∧
      block false 3 p ((written "    " s).toList.tail ++ '\n' :: (List.replicate j ' ' ++ rest)) =
        .ok ⟨(asItem s).toList, ⟨line, j⟩, rest⟩ := by
  have hvalue : (asItem s).toList = readItemLines s.toList := by
    rw [asItem, if_pos h, String.toList_ofList]
  have hprint := isPrintable_of_mem_dropEndFeeds h
  have hfeeds' : ∀ c ∈ literalFrom true (dropEndFeeds s.toList), isLineEnd c = true → c = '\n' := by
    intro c hc hend
    rcases mem_literalFrom hc with hc | rfl
    · exact hfeeds c (mem_of_mem_dropEndFeeds hc) hend
    · exact absurd hend (by decide)
  refine block_written h hj hgo (fun hnil => ?_) (fun hne line₀ => ?_)
  · rw [hvalue, readItemLines, if_pos hnil]
  · rw [hvalue, readItemLines, if_neg hne]
    show ∃ line, line₀ < line ∧ blockLines false 3 (headerOf s.toList) ⟨line₀, 0⟩
      (List.replicate 4 ' ' ++
      (indentLines (List.replicate 4 ' ') (literalFrom true (dropEndFeeds s.toList)) ++ _)) = _
    rw [indentLines_eq_laid true (.inr hfeeds')]
    by_cases hdeeper : opensDeeper s.toList = true
    · -- the depth is counted from the list, so the blanks that open the lines are read
      have hheader : headerOf s.toList = ⟨(headerOf s.toList).chomp, some 2⟩ := by
        rw [headerOf, if_pos hdeeper]
      have hread := @chomped_of_feeds s.toList (literalFrom true (dropEndFeeds s.toList)) hfeeds
        (getLast?_literalFrom hne)
      have hstart := @chompedAfter_nil (headerOf s.toList).chomp
        (literalFrom true (dropEndFeeds s.toList)) fun hall => by
          rw [all_isLineEnd_eq_false hne (getLast?_literalFrom hne) hfeeds'] at hall
          cases hall
      have hprint' : ∀ c ∈ literalFrom true (dropEndFeeds s.toList), isPrintable c = true := by
        intro c hc
        rcases mem_literalFrom hc with hc | rfl
        · exact hprint c hc
        · decide
      rw [if_pos hdeeper, hheader, ← hread]
      exact @blockLines_some 4 0 j rest 3 line₀ _ _ rfl hj hgo hprint' hstart
    · have hheader : headerOf s.toList = ⟨(headerOf s.toList).chomp, none⟩ := by
        rw [headerOf, if_neg hdeeper]
      have hread := @chomped_of_feeds s.toList (dropEndFeeds s.toList) hfeeds rfl
      rw [if_neg hdeeper, laid_literalFrom, hheader, ← hread]
      obtain ⟨c, ds, hcons⟩ := List.exists_cons_of_ne_nil hne
      rw [opensDeeper_dropEndFeeds hne, hcons] at hdeeper
      obtain ⟨hend, hspace⟩ := opensDeeper_eq_false (Bool.eq_false_of_not_eq_true hdeeper)
      rw [hcons] at hprint ⊢
      exact @blockLines_none 4 2 j rest 3 line₀ _ c ds (by decide) hj hgo hprint hend hspace

end Reading

end DagScaffold.Yaml
