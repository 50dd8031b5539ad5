import Mathlib
import DagScaffold.Proofs.Yaml.Word

/-!
# The lines of written texts

A text is written on one line, or as a header and further lines. A further line is empty, is
indented by two spaces, or starts with a break that is no line feed. What is done to the written
form afterwards keeps to that: the line feeds at its end are dropped, and the further lines get one
more indentation.

* `form_eq_header_literal` : the two shapes of a written form;
* `IsFurther`, `isFurther_of_mem_literalFrom` : the further lines;
* `splitOn_indentLines`, `exists_eq_dropEndFeeds` : what is done to a written form.
-/

namespace DagScaffold.Yaml

open Written

/-! ## Cutting at line feeds -/

/-- What stands before the first line feed is the start of the first line. -/
theorem splitOn_append_of_not_mem {front : List Char} (h : '\n' ∉ front) (cs : List Char) :
    (front ++ cs).splitOn '\n' = (cs.splitOn '\n').modifyHead (front ++ ·) := by
  induction front with
  | nil =>
      rw [List.nil_append]
      cases cs.splitOn '\n' <;> rfl
  | cons c front ih =>
      obtain ⟨hc, hfront⟩ := not_or.mp (List.mem_cons.not.mp h)
      have hne : ¬(c == '\n') = true := by simpa using Ne.symm hc
      rw [List.cons_append, List.splitOn_cons_eq_if_modifyHead, if_neg hne, ih hfront]
      cases cs.splitOn '\n' <;> rfl

theorem exists_splitOn_eq_cons (cs : List Char) : ∃ line lines, cs.splitOn '\n' = line :: lines :=
  List.exists_cons_of_ne_nil (List.splitOn_ne_nil '\n' cs)

/-! ## The two shapes -/

theorem newline_not_mem_literalSigns (cs : List Char) : '\n' ∉ literalSigns cs := by
  unfold literalSigns
  split_ifs <;> decide

/-- A written form has no line feed, or a header stands before the indented lines of the text. -/
theorem form_eq_header_literal (s : String) :
    '\n' ∉ form s ∨
      style s = .literal ∧ form s = '|' :: literalSigns s.toList ++
        '\n' :: literalFrom true s.toList := by
  by_cases hstyle : style s = .literal
  · right
    refine ⟨hstyle, ?_⟩
    unfold form
    rw [hstyle]
  · left
    rw [form_eq_chars hstyle]
    exact fun hmem => (Word.isPrintable_of_mem_chars (fits_ofText s) _ hmem).2 rfl

/-- What is written over lines can be shown. -/
theorem isPrintable_of_literal {s : String} (h : style s = .literal) {c : Char}
    (hc : c ∈ s.toList) :
    isPrintable c = true := by
  have hallowed : literalAllowed s.toList = true := by
    unfold style at h
    dsimp only at h
    split_ifs at h
    assumption
  simp only [literalAllowed, needsSpelling, Bool.not_eq_true', Bool.or_eq_false_iff] at hallowed
  simpa using List.any_eq_false.mp hallowed.2 c hc

/-! ## The further lines -/

/-- Whether a line can be a further line of a written text: it is empty, indented, or starts with a
break of the text that is no line feed. -/
def IsFurther (cs line : List Char) : Prop :=
  line = [] ∨ [' ', ' '] <+: line ∨ ∃ c ∈ cs, line.head? = some c ∧ isLineEnd c = true ∧ c ≠ '\n'

theorem IsFurther.cons {cs line : List Char} (h : IsFurther cs line) (c : Char) :
    IsFurther (c :: cs) line := by
  rcases h with h | h | ⟨d, hd, h⟩
  · exact Or.inl h
  · exact Or.inr (Or.inl h)
  · exact Or.inr (Or.inr ⟨d, List.mem_cons_of_mem c hd, h⟩)

/-- The lines of a text over lines are further lines. -/
theorem isFurther_of_mem_literalFrom {cs line : List Char}
    (h : line ∈ (literalFrom true cs).splitOn '\n') : IsFurther cs line := by
  -- in the middle of a line nothing is known of its start
  have hlines (opensLine : Bool) : ∃ first rest,
      (literalFrom opensLine cs).splitOn '\n' = first :: rest ∧
      (∀ line ∈ rest, IsFurther cs line) ∧ (opensLine = true → IsFurther cs first) := by
    clear h
    induction cs generalizing opensLine with
    | nil => exact ⟨[], [], rfl, fun _ hline => absurd hline List.not_mem_nil, fun _ => Or.inl rfl⟩
    | cons c cs ih =>
        unfold literalFrom
        by_cases hend : isLineEnd c = true
        · obtain ⟨first, rest, hsplit, hrest, hfirst⟩ := ih true
          have hfirst := hfirst rfl
          rw [if_pos hend, List.splitOn_cons_eq_if_modifyHead, hsplit]
          by_cases hfeed : c = '\n'
          · rw [if_pos (by simpa using hfeed)]
            refine ⟨[], first :: rest, rfl, fun line hline => ?_, fun _ => Or.inl rfl⟩
            rcases List.mem_cons.mp hline with rfl | hline
            · exact hfirst.cons c
            · exact (hrest line hline).cons c
          · rw [if_neg (by simpa using hfeed)]
            refine ⟨c :: first, rest, rfl, fun line hline => (hrest line hline).cons c, fun _ => ?_⟩
            exact Or.inr (Or.inr ⟨c, List.mem_cons_self, rfl, hend, hfeed⟩)
        · obtain ⟨first, rest, hsplit, hrest, -⟩ := ih false
          have hne : '\n' ≠ c := by
            rintro rfl
            exact hend rfl
          have hfeed : '\n' ∉ (if opensLine then [' ', ' '] else []) ++ [c] := by
            cases opensLine <;> simp [hne]
          rw [if_neg hend, List.append_cons, splitOn_append_of_not_mem hfeed, hsplit]
          refine ⟨_, rest, rfl, fun line hline => (hrest line hline).cons c, ?_⟩
          rintro rfl
          exact Or.inr (Or.inl ⟨c :: first, rfl⟩)
  obtain ⟨first, rest, hsplit, hrest, hfirst⟩ := hlines true
  rw [hsplit] at h
  rcases List.mem_cons.mp h with rfl | hline
  · exact hfirst rfl
  · exact hrest line hline

/-! ## What is done to a written form -/

/-- The line feeds at the end are all that is dropped. -/
theorem exists_eq_dropEndFeeds (cs : List Char) :
    ∃ k, cs = dropEndFeeds cs ++ List.replicate k '\n' := by
  refine ⟨(cs.reverse.takeWhile (· = '\n')).length, ?_⟩
  have hfeeds : cs.reverse.takeWhile (· = '\n') =
      List.replicate (cs.reverse.takeWhile (· = '\n')).length '\n' :=
    List.eq_replicate_of_mem fun c hc => by simpa using List.mem_takeWhile_imp hc
  have hsplit := congrArg List.reverse
    (List.takeWhile_append_dropWhile (p := (· = '\n')) (l := cs.reverse))
  rw [List.reverse_append, List.reverse_reverse, hfeeds, List.reverse_replicate] at hsplit
  exact hsplit.symm

/-- Without the line feeds at its end a text ends with none. -/
theorem getLast?_dropEndFeeds_ne (cs : List Char) : (dropEndFeeds cs).getLast? ≠ some '\n' := by
  rw [dropEndFeeds, List.getLast?_reverse]
  intro hlast
  have hhead := List.head?_dropWhile_not (· = '\n') cs.reverse
  rw [hlast] at hhead
  cases hhead

/-- Every further line gets the indentation. -/
theorem splitOn_indentLines {indent : List Char} (h : '\n' ∉ indent) (cs : List Char) :
    (indentLines indent cs).splitOn '\n' =
      (cs.splitOn '\n').headI :: ((cs.splitOn '\n').tail.map (indent ++ ·)) := by
  induction cs with
  | nil => rfl
  | cons c cs ih =>
      obtain ⟨first, rest, hsplit⟩ := exists_splitOn_eq_cons cs
      rw [hsplit] at ih
      rw [List.splitOn_cons_eq_if_modifyHead, hsplit, indentLines, List.flatMap_cons, ← indentLines]
      by_cases hfeed : c = '\n'
      · have hcons : (if c = '\n' then '\n' :: indent else [c]) ++ indentLines indent cs =
            [] ++ '\n' :: (indent ++ indentLines indent cs) := by rw [if_pos hfeed]; rfl
        rw [hcons, List.splitOn_append_cons_self, splitOn_append_of_not_mem h, ih,
          if_pos (by simpa using hfeed)]
        rfl
      · rw [if_neg hfeed, List.singleton_append, List.splitOn_cons_eq_if_modifyHead,
          if_neg (by simpa using hfeed), if_neg (by simpa using hfeed), ih]
        rfl

end DagScaffold.Yaml
