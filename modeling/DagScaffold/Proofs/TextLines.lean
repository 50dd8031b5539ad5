import Mathlib
import DagScaffold.Text.Blank

/-!
# What trimming leaves, and the lines of a text

Trimming and cutting into lines, said without the functions that do it: a trimmed text is what
stands between blanks and has none at its ends, and the lines of a text are the pieces that its line
feeds end, each of them with the carriage return before it.

* `TrimsEnd`, `Trims` : what is left of a text without blanks at its end, or at both ends;
* `HasLines` : the lines of a text;
* `trimEnd_eq_iff`, `trim_eq_iff`, `lines_eq_iff` : the functions find these, and nothing else is
  one.
-/

namespace DagScaffold.Text

/-! ## Trimming -/

/-- What is left of a text without the blanks at its end. -/
def TrimsEnd (s kept : String) : Prop :=
  ∃ blanks, s = kept ++ blanks ∧ isBlankText blanks = true ∧
    kept.toList.getLast?.any isBlank = false

/-- What is left of a text without the blanks at both ends. -/
def Trims (s kept : String) : Prop :=
  ∃ front back, s = front ++ kept ++ back ∧ isBlankText front = true ∧ isBlankText back = true ∧
    kept.toList.head?.any isBlank = false ∧ kept.toList.getLast?.any isBlank = false

theorem isBlankText_append (s t : String) :
    isBlankText (s ++ t) = (isBlankText s && isBlankText t) := by
  rw [isBlankText, String.toList_append, List.all_append]
  rfl

/-- A text is not blank when its last character is none. -/
theorem isBlankText_eq_false_of_getLast? {s : String} (hne : s ≠ "")
    (h : s.toList.getLast?.any isBlank = false) : isBlankText s = false := by
  have hchars : s.toList ≠ [] := mt String.toList_eq_nil_iff.mp hne
  rw [List.getLast?_eq_some_getLast hchars, Option.any_some] at h
  rw [isBlankText, List.all_eq_false]
  exact ⟨_, List.getLast_mem hchars, by rw [h]; exact Bool.false_ne_true⟩

theorem TrimsEnd.getLast? {s kept : String} (h : TrimsEnd s kept) :
    kept.toList.getLast?.any isBlank = false := by
  obtain ⟨-, -, -, hlast⟩ := h
  exact hlast

/-- Something is left of a text that is not blank. -/
theorem TrimsEnd.ne_empty {s kept : String} (h : TrimsEnd s kept) (hblank : isBlankText s = false) :
    kept ≠ "" := by
  obtain ⟨blanks, rfl, hblanks, -⟩ := h
  rintro rfl
  rw [String.empty_append, hblanks] at hblank
  cases hblank

/-- Dropping blanks from the front leaves a rest that opens with no blank. -/
theorem dropWhile_isBlank_eq_iff (cs kept : List Char) :
    cs.dropWhile isBlank = kept ↔
      ∃ blanks, cs = blanks ++ kept ∧ blanks.all isBlank = true ∧
        kept.head?.any isBlank = false := by
  constructor
  · rintro rfl
    refine ⟨cs.takeWhile isBlank, List.takeWhile_append_dropWhile.symm, ?_, ?_⟩
    · exact List.all_eq_true.mpr fun c hc => List.mem_takeWhile_imp hc
    · have hhead := List.head?_dropWhile_not isBlank cs
      cases hopen : (cs.dropWhile isBlank).head? with
      | none => rfl
      | some c =>
          rw [hopen] at hhead
          exact hhead
  · rintro ⟨blanks, rfl, hblanks, hopen⟩
    rw [List.dropWhile_append_of_pos (List.all_eq_true.mp hblanks)]
    cases kept with
    | nil => rfl
    | cons c cs => exact List.dropWhile_cons_of_neg (Bool.not_eq_true _ ▸ hopen)

/-- A text is trimmed at its end when blanks are left out behind its last other character. -/
theorem trimEndChars_eq_iff (cs kept : List Char) :
    trimEndChars cs = kept ↔
      ∃ blanks, cs = kept ++ blanks ∧ blanks.all isBlank = true ∧
        kept.getLast?.any isBlank = false := by
  rw [trimEndChars, List.reverse_eq_iff, dropWhile_isBlank_eq_iff, List.head?_reverse]
  constructor
  · rintro ⟨blanks, hsplit, hblanks, hlast⟩
    refine ⟨blanks.reverse, ?_, by rwa [List.all_reverse], hlast⟩
    rw [← List.reverse_reverse cs, hsplit, List.reverse_append, List.reverse_reverse]
  · rintro ⟨blanks, rfl, hblanks, hlast⟩
    exact ⟨blanks.reverse, List.reverse_append, by rwa [List.all_reverse], hlast⟩

/-- Trimming the end of a text leaves what stands before its last blanks. -/
theorem trimEnd_eq_iff (s kept : String) : trimEnd s = kept ↔ TrimsEnd s kept := by
  have hchars : trimEnd s = kept ↔ trimEndChars s.toList = kept.toList := by
    rw [trimEnd, ← String.toList_inj, String.toList_ofList]
  rw [hchars, trimEndChars_eq_iff]
  constructor
  · rintro ⟨blanks, hsplit, hblanks, hlast⟩
    refine ⟨.ofList blanks, ?_, by rwa [isBlankText, String.toList_ofList], hlast⟩
    rw [← String.toList_inj, String.toList_append, String.toList_ofList, hsplit]
  · rintro ⟨blanks, rfl, hblanks, hlast⟩
    exact ⟨blanks.toList, String.toList_append, hblanks, hlast⟩

theorem trimsEnd_trimEnd (s : String) : TrimsEnd s (trimEnd s) :=
  (trimEnd_eq_iff s _).mp rfl

/-- A text is trimmed when blanks are left out on both of its sides. -/
theorem trimChars_eq_iff (cs kept : List Char) :
    trimChars cs = kept ↔
      ∃ front back, cs = front ++ kept ++ back ∧ front.all isBlank = true ∧
        back.all isBlank = true ∧ kept.head?.any isBlank = false ∧
          kept.getLast?.any isBlank = false := by
  rw [trimChars, trimEndChars_eq_iff]
  constructor
  · rintro ⟨back, hsplit, hback, hlast⟩
    obtain ⟨front, hcs, hfront, hopen⟩ := (dropWhile_isBlank_eq_iff _ _).mp hsplit
    refine ⟨front, back, by rw [hcs, List.append_assoc], hfront, hback, ?_, hlast⟩
    cases kept with
    | nil => rfl
    | cons c cs => exact hopen
  · rintro ⟨front, back, rfl, hfront, hback, hopen, hlast⟩
    cases kept with
    | nil =>
        -- blanks all over, so none of them is left to stand at the end
        refine ⟨[], ?_, rfl, rfl⟩
        rw [List.append_nil, List.append_nil, List.dropWhile_eq_nil_iff]
        exact List.all_eq_true.mp (by rw [List.all_append, hfront, hback]; rfl)
    | cons c cs =>
        refine ⟨back, (dropWhile_isBlank_eq_iff _ _).mpr ⟨front, ?_, hfront, hopen⟩, hback, hlast⟩
        exact List.append_assoc _ _ _

/-- Trimming a text leaves what stands between its first blanks and its last ones. -/
theorem trim_eq_iff (s kept : String) : trim s = kept ↔ Trims s kept := by
  have hchars : trim s = kept ↔ trimChars s.toList = kept.toList := by
    rw [trim, ← String.toList_inj, String.toList_ofList]
  rw [hchars, trimChars_eq_iff]
  constructor
  · rintro ⟨front, back, hsplit, hfront, hback, hends⟩
    refine ⟨.ofList front, .ofList back, ?_, by rwa [isBlankText, String.toList_ofList],
      by rwa [isBlankText, String.toList_ofList], hends⟩
    rw [← String.toList_inj, String.toList_append, String.toList_append, String.toList_ofList,
      String.toList_ofList, hsplit]
  · rintro ⟨front, back, rfl, hfront, hback, hends⟩
    refine ⟨front.toList, back.toList, ?_, hfront, hback, hends⟩
    rw [String.toList_append, String.toList_append]

/-! ## Lines -/

/-- The lines of a text. A line feed ends a line and a carriage return before it belongs to that
end; what stands behind the last line feed is a line unless there is nothing. -/
inductive HasLines : String → List String → Prop
  | none : HasLines "" []
  | last {line : String} : line ≠ "" → '\n' ∉ line.toList → HasLines line [line]
  | feed {line rest : String} {ls : List String} : '\n' ∉ line.toList →
      line.toList.getLast? ≠ some '\r' → HasLines rest ls →
      HasLines (line ++ "\n" ++ rest) (line :: ls)
  | returnFeed {line rest : String} {ls : List String} : '\n' ∉ line.toList → HasLines rest ls →
      HasLines (line ++ "\r\n" ++ rest) (line :: ls)

theorem linesFrom_append {cs : List Char} (h : '\n' ∉ cs) (line rest : List Char) :
    linesFrom line (cs ++ rest) = linesFrom (cs.reverse ++ line) rest := by
  induction cs generalizing line with
  | nil => rfl
  | cons c cs ih =>
      obtain ⟨hc, hcs⟩ := not_or.mp (List.mem_cons.not.mp h)
      rw [List.cons_append, linesFrom, if_neg (Ne.symm hc), ih hcs, List.reverse_cons,
        List.append_assoc]
      rfl

/-- The lines of a text are those that are found. -/
theorem lines_of_hasLines {s : String} {ls : List String} (h : HasLines s ls) : lines s = ls := by
  induction h with
  | none => rfl
  | @last line hne hfeed =>
      have hchars : line.toList ≠ [] := mt String.toList_eq_nil_iff.mp hne
      rw [lines, ← List.append_nil line.toList, linesFrom_append hfeed, linesFrom, List.append_nil,
        if_neg (by simpa using hchars), List.reverse_reverse, List.map_singleton,
        String.ofList_toList]
  | @feed line rest ls hfeed hreturn _ ih =>
      have hdrop : dropReturn line.toList.reverse = line.toList.reverse := by
        rw [dropReturn]
        intro cs hcs
        rw [← List.head?_reverse, hcs] at hreturn
        exact hreturn rfl
      rw [lines, String.toList_append, String.toList_append, List.append_assoc,
        linesFrom_append hfeed]
      show (linesFrom _ ('\n' :: rest.toList)).map String.ofList = _
      rw [linesFrom, if_pos rfl, List.append_nil, hdrop, List.reverse_reverse, List.map_cons,
        String.ofList_toList, ← lines, ih]
  | @returnFeed line rest ls hfeed _ ih =>
      rw [lines, String.toList_append, String.toList_append, List.append_assoc,
        linesFrom_append hfeed]
      show (linesFrom _ ('\r' :: '\n' :: rest.toList)).map String.ofList = _
      rw [linesFrom, if_neg (by decide), linesFrom, if_pos rfl, List.append_nil, dropReturn,
        List.reverse_reverse, List.map_cons, String.ofList_toList, ← lines, ih]

/-- The lines after a part of a line that was read already. -/
theorem hasLines_linesFrom {line : List Char} (h : '\n' ∉ line) (cs : List Char) :
    HasLines (.ofList (line.reverse ++ cs)) ((linesFrom line cs).map .ofList) := by
  induction cs generalizing line with
  | nil =>
      rw [List.append_nil]
      cases line with
      | nil => exact .none
      | cons c line =>
          refine .last ?_ ?_
          · rw [Ne, ← String.toList_eq_nil_iff, String.toList_ofList]
            exact mt List.reverse_eq_nil_iff.mp (List.cons_ne_nil c line)
          · rwa [String.toList_ofList, List.mem_reverse]
  | cons c cs ih =>
      by_cases hc : c = '\n'
      · have hrest : HasLines (.ofList cs) ((linesFrom [] cs).map .ofList) := ih List.not_mem_nil
        rw [hc, linesFrom, if_pos rfl, List.map_cons]
        -- the carriage return, if there is one, was read last
        by_cases hreturn : line.head? = some '\r'
        · obtain ⟨line, rfl⟩ : ∃ front, line = '\r' :: front := List.head?_eq_some_iff.mp hreturn
          have hsplit : String.ofList (('\r' :: line).reverse ++ '\n' :: cs) =
              .ofList line.reverse ++ "\r\n" ++ .ofList cs := by
            rw [← String.toList_inj]
            simp
          rw [hsplit, dropReturn]
          refine .returnFeed ?_ hrest
          rw [String.toList_ofList, List.mem_reverse]
          exact fun hmem => h (List.mem_cons_of_mem _ hmem)
        · have hsplit : String.ofList (line.reverse ++ '\n' :: cs) =
              .ofList line.reverse ++ "\n" ++ .ofList cs := by
            rw [← String.toList_inj]
            simp
          have hdrop : dropReturn line = line := by
            rw [dropReturn]
            rintro front rfl
            exact hreturn rfl
          rw [hsplit, hdrop]
          refine .feed ?_ ?_ hrest
          · rwa [String.toList_ofList, List.mem_reverse]
          · rwa [String.toList_ofList, List.getLast?_reverse]
      · rw [linesFrom, if_neg hc]
        have hline := @ih (c :: line) (List.mem_cons.not.mpr (not_or.mpr ⟨Ne.symm hc, h⟩))
        rwa [List.reverse_cons, List.append_assoc] at hline

/-- The lines of a text are found, and it has no others. -/
theorem lines_eq_iff (s : String) (ls : List String) : lines s = ls ↔ HasLines s ls := by
  refine ⟨?_, lines_of_hasLines⟩
  rintro rfl
  have h := hasLines_linesFrom List.not_mem_nil s.toList
  rwa [List.reverse_nil, List.nil_append, String.ofList_toList] at h

theorem hasLines_lines (s : String) : HasLines s (lines s) :=
  (lines_eq_iff s _).mp rfl

/-- What follows a blank up to the end of a text is there when the text does not end with a
blank. -/
theorem getLast?_of_append {front rest : String} (hblank : front.toList.getLast?.any isBlank = true)
    (hend : (front ++ rest).toList.getLast?.any isBlank = false) :
    rest ≠ "" ∧ rest.toList.getLast?.any isBlank = false := by
  have hne : rest ≠ "" := by
    rintro rfl
    rw [String.append_empty, hblank] at hend
    cases hend
  rw [String.toList_append,
    List.getLast?_append_of_ne_nil _ (mt String.toList_eq_nil_iff.mp hne)] at hend
  exact ⟨hne, hend⟩

theorem any_isBlank_getLast?_append (line : String) {mark : String}
    (h : mark.toList.getLast?.any isBlank = true) :
    (line ++ mark).toList.getLast?.any isBlank = true := by
  rw [String.toList_append, List.getLast?_append]
  cases hlast : mark.toList.getLast? with
  | none =>
      rw [hlast] at h
      cases h
  | some c => rwa [hlast] at h

/-- The last line of a text that does not end with a blank is not blank. -/
theorem HasLines.exists_getLast? {s : String} {ls : List String} (h : HasLines s ls) (hne : s ≠ "")
    (hend : s.toList.getLast?.any isBlank = false) :
    ∃ last, ls.getLast? = some last ∧ isBlankText last = false := by
  -- the last line of what follows a line is the last one
  have hbehind {line : String} {ls : List String}
      (h : ∃ last, ls.getLast? = some last ∧ isBlankText last = false) :
      ∃ last, (line :: ls).getLast? = some last ∧ isBlankText last = false := by
    obtain ⟨last, hlast, hclear⟩ := h
    exact ⟨last, by rw [List.getLast?_cons, hlast]; rfl, hclear⟩
  induction h with
  | none => exact absurd rfl hne
  | last hline _ => exact ⟨_, rfl, isBlankText_eq_false_of_getLast? hline hend⟩
  | feed _ _ _ ih =>
      obtain ⟨hrest, hend⟩ := getLast?_of_append (any_isBlank_getLast?_append _ (by decide)) hend
      exact hbehind (ih hrest hend)
  | returnFeed _ _ ih =>
      obtain ⟨hrest, hend⟩ := getLast?_of_append (any_isBlank_getLast?_append _ (by decide)) hend
      exact hbehind (ih hrest hend)

/-- No line feed is left in a line. -/
theorem HasLines.not_mem_lineFeed {s : String} {ls : List String} (h : HasLines s ls) :
    ∀ line ∈ ls, '\n' ∉ line.toList := by
  induction h with
  | none => exact fun line hline => absurd hline List.not_mem_nil
  | last _ hfeed => exact List.forall_mem_singleton.mpr hfeed
  | feed hfeed _ _ ih => exact List.forall_mem_cons.mpr ⟨hfeed, ih⟩
  | returnFeed hfeed _ ih => exact List.forall_mem_cons.mpr ⟨hfeed, ih⟩

end DagScaffold.Text
