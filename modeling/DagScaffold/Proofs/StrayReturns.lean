import Mathlib
import DagScaffold.Proofs.Callables

/-!
# Carriage returns in the bodies of functions

The lines of a code end at its line feeds, and the carriage return before a line feed goes with it.
Any other one stays in its line and gets into the body, unless the line is blank or the return is
among the blanks at the end of the code.

* `StrayReturn` : codes with such a return;
* `exists_subset_linesFrom` : what was read of a line is found in one of the lines;
* `exists_return_mem_body_iff` : the bodies that hold a carriage return.
-/

namespace DagScaffold

open Dag (OneLine oneLine_append_iff)
open Text (HasLines TrimsEnd isBlank isBlankText dropReturn linesFrom)

/-! ## Lines with a carriage return -/

namespace Text

/-- A text holds a character that is not blank when it is not blank. -/
theorem isBlankText_eq_false_iff (s : String) :
    isBlankText s = false ↔ ∃ c ∈ s.toList, isBlank c = false := by
  simp only [isBlankText, List.all_eq_false, Bool.not_eq_true]

theorem mem_dropReturn {c : Char} {line : List Char} (hc : c ≠ '\r') (h : c ∈ line) :
    c ∈ dropReturn line := by
  unfold dropReturn
  split
  · exact (List.mem_cons.mp h).resolve_left hc
  · exact h

theorem mem_dropReturn_cons {c : Char} {line : List Char} (h : c ∈ line) (d : Char) :
    c ∈ dropReturn (d :: line) := by
  unfold dropReturn
  split
  next heq => exact (List.cons.inj heq).2 ▸ h
  · exact List.mem_cons_of_mem d h

/-- What was read of a line stands in one of the lines, less the carriage return before a line
feed. -/
theorem exists_subset_linesFrom {line : List Char} (h : line ≠ []) (cs : List Char) :
    ∃ row ∈ linesFrom line cs, dropReturn line ⊆ row := by
  have hdrop {line : List Char} : dropReturn line ⊆ line := by
    intro c hc
    unfold dropReturn at hc
    split at hc
    · exact List.mem_cons_of_mem _ hc
    · exact hc
  induction cs generalizing line with
  | nil =>
      rw [linesFrom, if_neg (by simpa using h)]
      exact ⟨_, List.mem_singleton_self _, fun c hc => List.mem_reverse.mpr (hdrop hc)⟩
  | cons c cs ih =>
      rw [linesFrom]
      split_ifs with hc
      · exact ⟨_, List.mem_cons_self, fun d hd => List.mem_reverse.mpr hd⟩
      · obtain ⟨row, hrow, hsubset⟩ := ih (List.cons_ne_nil c line)
        exact ⟨row, hrow, fun d hd => hsubset (mem_dropReturn_cons (hdrop hd) c)⟩

/-- The lines of what follows a text are lines of the whole, but for the start of the first of
them. -/
theorem exists_linesFrom_append (line front rest : List Char) :
    ∃ line', linesFrom line' rest ⊆ linesFrom line (front ++ rest) := by
  induction front generalizing line with
  | nil => exact ⟨line, List.Subset.refl _⟩
  | cons c front ih =>
      rw [List.cons_append, linesFrom]
      split_ifs with hc
      · obtain ⟨line', hsubset⟩ := ih []
        exact ⟨line', List.subset_cons_of_subset _ hsubset⟩
      · exact ih (c :: line)

/-- A carriage return that neither a line feed nor the end of the text follows stands in one of the
lines, with what stands around it in its line. -/
theorem exists_line_of_return {l r : String} (hl : OneLine l) (hr : OneLine r) (hne : r ≠ "")
    (before after : String) :
    ∃ line ∈ lines (before ++ l ++ "\r" ++ r ++ after),
      '\r' ∈ line.toList ∧ ∀ c ∈ (l ++ r).toList, c ≠ '\r' → c ∈ line.toList := by
  obtain ⟨d, ds, hend⟩ : ∃ d ds, r.toList.reverse = d :: ds :=
    List.exists_cons_of_ne_nil (by simpa using hne)
  have hfeed : '\n' ∉ l.toList ++ '\r' :: r.toList := by
    simpa only [List.mem_append, List.mem_cons, not_or] using ⟨hl, by decide, hr⟩
  obtain ⟨line, hbehind⟩ := exists_linesFrom_append [] before.toList
    (l.toList ++ '\r' :: r.toList ++ after.toList)
  -- what was read of the line, backwards, when its return is behind it
  have hread : (l.toList ++ '\r' :: r.toList).reverse ++ line =
      d :: (ds ++ '\r' :: (l.toList.reverse ++ line)) := by
    rw [List.reverse_append, List.reverse_cons, hend]
    simp
  obtain ⟨row, hrow, hsubset⟩ := exists_subset_linesFrom (hread ▸ List.cons_ne_nil _ _) after.toList
  rw [← linesFrom_append hfeed] at hrow
  refine ⟨.ofList row, ?_, ?_, fun c hc hcr => ?_⟩
  · have hchars : (before ++ l ++ "\r" ++ r ++ after).toList =
        before.toList ++ (l.toList ++ '\r' :: r.toList ++ after.toList) := by
      simp
    rw [lines, hchars]
    exact List.mem_map_of_mem (hbehind hrow)
  · rw [String.toList_ofList]
    exact hsubset (hread ▸ mem_dropReturn_cons (by simp) d)
  · rw [String.toList_ofList]
    refine hsubset (mem_dropReturn hcr ?_)
    rw [String.toList_append, List.mem_append] at hc
    rw [List.mem_append, List.mem_reverse, List.mem_append, List.mem_cons]
    tauto

/-- Of two ways to put a text together, one is cut behind the other or before it. -/
theorem append_eq_append {s t u v : String} (h : s ++ t = u ++ v) :
    (∃ w, u = s ++ w ∧ t = w ++ v) ∨ ∃ w, s = u ++ w ∧ v = w ++ t := by
  rw [← String.toList_inj, String.toList_append, String.toList_append,
    List.append_eq_append_iff] at h
  have hlift {w : List Char} {s t : String} (h : s.toList = t.toList ++ w) :
      s = t ++ .ofList w := by
    rw [← String.toList_inj, h, String.toList_append, String.toList_ofList]
  have hlift' {w : List Char} {s t : String} (h : s.toList = w ++ t.toList) :
      s = .ofList w ++ t := by
    rw [← String.toList_inj, h, String.toList_append, String.toList_ofList]
  rcases h with ⟨w, hu, ht⟩ | ⟨w, hs, hv⟩
  · exact .inl ⟨.ofList w, hlift hu, hlift' ht⟩
  · exact .inr ⟨.ofList w, hlift hs, hlift' hv⟩

/-- A line of a text with what stands before and behind it: an end of a line follows it, or
nothing. -/
theorem HasLines.exists_append {s : String} {ls : List String} (h : HasLines s ls) {line : String}
    (hline : line ∈ ls) :
    ∃ before rest, s = before ++ line ++ rest ∧
      (rest = "" ∨ (∃ back, rest = "\n" ++ back ∧ line.toList.getLast? ≠ some '\r') ∨
        ∃ back, rest = "\r\n" ++ back) := by
  have hbehind {front s : String} {P : String → Prop}
      (h : ∃ before rest, s = before ++ line ++ rest ∧ P rest) :
      ∃ before rest, front ++ s = before ++ line ++ rest ∧ P rest := by
    obtain ⟨before, rest, rfl, hrest⟩ := h
    exact ⟨front ++ before, rest, by simp only [String.append_assoc], hrest⟩
  induction h with
  | none => exact absurd hline List.not_mem_nil
  | last _ _ =>
      obtain rfl := List.mem_singleton.mp hline
      exact ⟨"", "", by simp, .inl rfl⟩
  | @feed first rest ls hfeed hreturn _ ih =>
      rcases List.mem_cons.mp hline with rfl | hline
      · exact ⟨"", "\n" ++ rest, by simp only [String.append_assoc, String.empty_append],
          .inr (.inl ⟨rest, rfl, hreturn⟩)⟩
      · exact hbehind (ih hline)
  | @returnFeed first rest ls hfeed _ ih =>
      rcases List.mem_cons.mp hline with rfl | hline
      · exact ⟨"", "\r\n" ++ rest, by simp only [String.append_assoc, String.empty_append],
          .inr (.inr ⟨rest, rfl⟩)⟩
      · exact hbehind (ih hline)

end Text

/-! ## Bodies with a carriage return -/

namespace TaskModule

/-- Whether a code holds a carriage return within a line that is not blank, with something behind it
that is not blank. A return before a line feed is not within its line. -/
def StrayReturn (code : String) : Prop :=
  ∃ before l r after, code = before ++ l ++ "\r" ++ r ++ after ∧ OneLine l ∧ OneLine r ∧ r ≠ "" ∧
    isBlankText (l ++ r) = false ∧ isBlankText (r ++ after) = false

/-- A row of a body holds the carriage returns of its line, unless the line is blank. -/
theorem return_mem_bodyLine_iff (line : String) :
    '\r' ∈ (bodyLine line).toList ↔ isBlankText line = false ∧ '\r' ∈ line.toList := by
  unfold bodyLine
  split_ifs with hblank
  · simp [hblank]
  · have hindent : '\r' ∉ indentation.toList := by decide
    simp [hblank, hindent]

/-- What trimming leaves of a code with a stray return still has it. -/
theorem StrayReturn.of_trimsEnd {code kept : String} (h : StrayReturn code)
    (htrims : TrimsEnd code kept) :
    ∃ before l r after, kept = before ++ l ++ "\r" ++ r ++ after ∧ OneLine l ∧ OneLine r ∧ r ≠ "" ∧
      isBlankText (l ++ r) = false := by
  obtain ⟨before, l, r, after, hcode, hl, hr, hne, hclear, hbehind⟩ := h
  obtain ⟨blanks, hsplit, hblanks, -⟩ := htrims
  have heq : (before ++ l ++ "\r") ++ (r ++ after) = kept ++ blanks := by
    simp only [← hsplit, hcode, String.append_assoc]
  rcases Text.append_eq_append heq with ⟨x, rfl, hx⟩ | ⟨x, -, rfl⟩
  · -- the blanks at the end begin behind the line or in it
    rcases Text.append_eq_append hx with ⟨y, rfl, rfl⟩ | ⟨y, rfl, rfl⟩
    · exact ⟨before, l, r, y, by simp only [String.append_assoc], hl, hr, hne, hclear⟩
    · rw [Text.isBlankText_append, Bool.and_eq_true] at hblanks
      refine ⟨before, l, x, "", by rw [String.append_empty], hl, (oneLine_append_iff.mp hr).1, ?_,
        ?_⟩
      · rintro rfl
        simp [Text.isBlankText_append, hblanks] at hbehind
      · rwa [← String.append_assoc, Text.isBlankText_append, hblanks.1, Bool.and_true] at hclear
  · rw [Text.isBlankText_append, hbehind, Bool.and_false] at hblanks
    cases hblanks

/-- A carriage return in a line of a code that is not blank is a stray one. -/
theorem strayReturn_of_mem_lines {code line : String}
    (hline : line ∈ Text.lines (Text.trimEnd code))
    (h : isBlankText line = false ∧ '\r' ∈ line.toList) : StrayReturn code := by
  obtain ⟨hclear, hreturn⟩ := h
  obtain ⟨blanks, hsplit, -, hlast⟩ := Text.trimsEnd_trimEnd code
  obtain ⟨before, rest, hkept, hend⟩ := (Text.hasLines_lines _).exists_append hline
  have hfeed : OneLine line := (Text.hasLines_lines _).not_mem_lineFeed line hline
  obtain ⟨ls, rs, hchars⟩ := List.append_of_mem hreturn
  obtain ⟨l, r, rfl⟩ : ∃ l r, line = l ++ "\r" ++ r := by
    refine ⟨.ofList ls, .ofList rs, ?_⟩
    rw [← String.toList_inj, hchars]
    simp
  obtain ⟨⟨hl, -⟩, hr⟩ := (oneLine_append_iff.mp hfeed).imp_left oneLine_append_iff.mp
  have hsides : isBlankText (l ++ r) = false := by
    simpa [Text.isBlankText_append, show isBlankText "\r" = true by decide] using hclear
  -- something that is not blank stands behind the return in what trimming leaves
  have hbehind : isBlankText (r ++ rest) = false := by
    rw [hkept, show before ++ (l ++ "\r" ++ r) ++ rest = before ++ l ++ "\r" ++ (r ++ rest) by
      simp only [String.append_assoc]] at hlast
    obtain ⟨hne, hend⟩ :=
      Text.getLast?_of_append (Text.any_isBlank_getLast?_append (before ++ l) (by decide)) hlast
    exact Text.isBlankText_eq_false_of_getLast? hne hend
  by_cases hne : r = ""
  · -- the return ends its line, so it is another one that belongs to the end of the line
    subst hne
    rcases hend with rfl | ⟨back, rfl, hnot⟩ | ⟨back, rfl⟩
    · cases hbehind
    · exact absurd (by simp) hnot
    · refine ⟨before, l, "\r", "\n" ++ back ++ blanks, ?_, hl, by decide, by decide, ?_, ?_⟩
      · rw [hsplit, hkept]
        simp only [String.append_assoc, String.append_empty]
        rfl
      · rwa [String.append_empty] at hclear
      · have hback : isBlankText back = false := by
          simpa [Text.isBlankText_append, show isBlankText "\r\n" = true by decide] using hbehind
        simp [Text.isBlankText_append, hback]
  · refine ⟨before, l, r, rest ++ blanks, ?_, hl, hr, hne, hsides, ?_⟩
    · rw [hsplit, hkept]
      simp only [String.append_assoc]
    · rw [← String.append_assoc, Text.isBlankText_append, hbehind, Bool.false_and]

/-- A body holds a carriage return when one of its code is none of a line end. -/
theorem exists_return_mem_body_iff (code : String) :
    (∃ row ∈ body code, '\r' ∈ row.toList) ↔ StrayReturn code := by
  constructor
  · rintro ⟨row, hrow, hreturn⟩
    cases hblank : isBlankText code with
    | true =>
        rw [body_of_isBlankText hblank, List.mem_singleton] at hrow
        exact absurd (hrow ▸ hreturn) (by decide)
    | false =>
        rw [body_of_not_isBlankText hblank] at hrow
        obtain ⟨line, hline, rfl⟩ := List.mem_map.mp hrow
        exact strayReturn_of_mem_lines hline ((return_mem_bodyLine_iff line).mp hreturn)
  · intro h
    obtain ⟨before, l, r, after, hkept, hl, hr, hne, hclear⟩ :=
      h.of_trimsEnd (Text.trimsEnd_trimEnd code)
    obtain ⟨line, hline, hreturn, hmem⟩ := Text.exists_line_of_return hl hr hne before after
    rw [← hkept] at hline
    have hlineclear : isBlankText line = false := by
      obtain ⟨c, hc, hnonblank⟩ := (Text.isBlankText_eq_false_iff _).mp hclear
      refine (Text.isBlankText_eq_false_iff _).mpr ⟨c, hmem c hc ?_, hnonblank⟩
      rintro rfl
      cases hnonblank
    have hcode : isBlankText code = false := by
      obtain ⟨before, l, r, after, rfl, -, -, -, -, hbehind⟩ := h
      rw [String.append_assoc, Text.isBlankText_append, hbehind, Bool.and_false]
    refine ⟨bodyLine line, ?_, (return_mem_bodyLine_iff line).mpr ⟨hlineclear, hreturn⟩⟩
    rw [body_of_not_isBlankText hcode]
    exact List.mem_map_of_mem hline

end TaskModule

end DagScaffold
