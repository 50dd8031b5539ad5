import Mathlib
import DagScaffold.Proofs.Yaml.Emitted
import DagScaffold.Proofs.Yaml.WordScan

/-!
# Reading texts over indented lines

The lines of a text are read back without their indentation, up to the first line that has less of
it. The breaks at the end of the text are kept as the first line asks for.

* `laid` : a text over lines with the same indentation, and what opens its lines;
* `chomped` : what is read of a text whose last line ends in a line feed;
* `blockFrom_laid` : the lines are read as what is chomped;
* `headerOf`, `block_eq_blockLines` : what the first line says;
* `blockLines_some`, `blockLines_none` : the lines below a first line that gives their depth or
  leaves it to them.
-/

namespace DagScaffold.Yaml

open Written

/-! ## Lines with indentation -/

/-- A text over lines: `indent` stands after the end of every line, and `opening` opens every line
that is not empty. -/
def laid (indent opening : List Char) (opensLine : Bool) : List Char → List Char
  | [] => []
  | c :: cs =>
    if isLineEnd c then c :: (indent ++ laid indent opening true cs)
    else (if opensLine then opening else []) ++ c :: laid indent opening false cs

/-- Line feeds get the indentation, other ends of lines only if there is none to get. -/
theorem indentLines_eq_laid {indent cs : List Char} (opensLine : Bool)
    (h : indent = [] ∨ ∀ c ∈ cs, isLineEnd c = true → c = '\n') :
    indentLines indent cs = laid indent [] opensLine cs := by
  induction cs generalizing opensLine with
  | nil => rfl
  | cons c cs ih =>
      have ih := fun b => ih b (h.imp_right fun h d hd => h d (List.mem_cons_of_mem c hd))
      rw [indentLines, List.flatMap_cons, ← indentLines, laid]
      by_cases hend : isLineEnd c = true
      · rw [if_pos hend, ih true]
        rcases h with rfl | h
        · split_ifs with hfeed
          · rw [hfeed]
            rfl
          · rfl
        · rw [h c List.mem_cons_self hend]
          rfl
      · have hfeed : c ≠ '\n' := by
          rintro rfl
          exact hend rfl
        rw [if_neg hend, if_neg hfeed, ih false]
        cases opensLine <;> rfl

/-- The two blanks that open a line can be taken for what opens it or for a part of it. -/
theorem laid_literalFrom (indent cs : List Char) (opensLine : Bool) :
    laid indent [] opensLine (literalFrom opensLine cs) = laid indent [' ', ' '] opensLine cs := by
  induction cs generalizing opensLine with
  | nil => rfl
  | cons c cs ih =>
      rw [literalFrom, laid]
      by_cases hend : isLineEnd c = true
      · rw [if_pos hend, if_pos hend, laid, if_pos hend, ih]
      · have hspace : ¬isLineEnd ' ' = true := by decide
        rw [if_neg hend, if_neg hend]
        cases opensLine with
        | false =>
            show laid indent [] false (c :: literalFrom false cs) =
              c :: laid indent [' ', ' '] false cs
            rw [laid, if_neg hend, ih]
            rfl
        | true =>
            show laid indent [] true (' ' :: ' ' :: c :: literalFrom false cs) =
              ' ' :: ' ' :: c :: laid indent [' ', ' '] false cs
            rw [laid, if_neg hspace, laid, if_neg hspace, laid, if_neg hend, ih]
            rfl

/-! ## Steps of the reading -/

theorem blockFrom_break_line {form : BlockForm} {b : Bool} {p : Place} {c : Char} {cs : List Char}
    (hc : isBreak c = true) :
    blockFrom form (.line b) p (c :: cs) =
      blockFrom form (.indentation [c] [] b) ⟨p.line + 1, 0⟩ cs := by
  rw [blockFrom, if_pos hc, Place.after, if_pos hc]

theorem blockFrom_cons_line {form : BlockForm} {b : Bool} {p : Place} {c : Char} {cs : List Char}
    (hc : isBreak c = false) :
    blockFrom form (.line b) p (c :: cs) =
      (blockFrom form (.line b) (p.right 1) cs).map (.prepend [c]) := by
  rw [blockFrom, hc, if_neg Bool.false_ne_true, Place.after_eq_right hc]

section Indentation

variable {form : BlockForm} {lineEnd others : List Char} {b : Bool}

theorem blockFrom_spaces {line column : Nat} {cs : List Char} (n : Nat)
    (h : column + n ≤ form.indent) :
    blockFrom form (.indentation lineEnd others b) ⟨line, column⟩ (List.replicate n ' ' ++ cs) =
      blockFrom form (.indentation lineEnd others b) ⟨line, column + n⟩ cs := by
  induction n generalizing column with
  | zero => rfl
  | succ n ih =>
      have hshallow : column < form.indent := by omega
      have hstep := @ih (column + 1) (by omega)
      rw [List.replicate_succ, List.cons_append, blockFrom, if_pos (by simp [hshallow]),
        show column + (n + 1) = column + 1 + n by omega]
      exact hstep

theorem blockFrom_break_indentation {p : Place} {c : Char} {cs : List Char} (hc : isBreak c = true)
    (hblank : isBlank c = false) :
    blockFrom form (.indentation lineEnd others b) p (c :: cs) =
      blockFrom form (.indentation lineEnd (others ++ [c]) b) ⟨p.line + 1, 0⟩ cs := by
  obtain ⟨hspace, htab⟩ : c ≠ ' ' ∧ c ≠ '\t' := by simpa [isBlank] using hblank
  rw [blockFrom, if_neg (by simp [hspace]), if_neg (by simp [htab]), if_pos hc, Place.after,
    if_pos hc]

/-- A line begins with the first character after its indentation. -/
theorem blockFrom_open {p : Place} {c : Char} {cs : List Char} (hfolded : form.folded = false)
    (hcolumn : p.column = form.indent) (hc : isBreak c = false) :
    blockFrom form (.indentation lineEnd others b) p (c :: cs) =
      (blockFrom form (.line (isBlank c)) (p.right 1) cs).map
        (.prepend (lineEnd ++ others ++ [c])) := by
  have hbetween : form.between lineEnd others (b || isBlank c) = lineEnd ++ others := by
    rw [BlockForm.between, hfolded]
    rfl
  rw [blockFrom, if_neg (by simp [hcolumn]), if_neg (by simp [hcolumn]), hc,
    if_neg Bool.false_ne_true, if_pos hcolumn, hbetween, Place.after_eq_right hc]

/-- A line with less indentation ends the text. -/
theorem blockFrom_end {line j : Nat} {rest : List Char} (hj : j < form.indent)
    (hgo : goesOn rest = true) :
    blockFrom form (.indentation lineEnd others b) ⟨line, 0⟩ (List.replicate j ' ' ++ rest) =
      .ok ⟨form.chomp.kept lineEnd others, ⟨line, j⟩, rest⟩ := by
  rw [blockFrom_spaces j (by omega), Nat.zero_add]
  cases rest with
  | nil => rfl
  | cons c rest =>
      simp only [goesOn, isBlank, Bool.and_eq_true, Bool.not_eq_true', Bool.or_eq_false_iff,
        decide_eq_false_iff_not] at hgo
      obtain ⟨⟨⟨hspace, htab⟩, hbreak⟩, -⟩ := hgo
      have hcolumn : ¬j = form.indent := by omega
      simp [blockFrom, hspace, htab, hbreak, hcolumn]

end Indentation

/-! ## The breaks at the end -/

/-- What is read of a text whose last line ends in a line feed. -/
def chomped (chomp : Chomp) : List Char → List Char
  | [] => chomp.kept ['\n'] []
  | c :: cs =>
    if isLineEnd c && cs.all isLineEnd then chomp.kept [c] (cs ++ ['\n']) else c :: chomped chomp cs

/-- What is read of the rest of a text after some breaks, the first of which ends a line. -/
def chompedAfter (chomp : Chomp) (lineEnd others cs : List Char) : List Char :=
  if cs.all isLineEnd then chomp.kept lineEnd (others ++ cs ++ ['\n'])
  else lineEnd ++ others ++ chomped chomp cs

/-- A line end among those at the end of a text is kept as the rest is. -/
theorem chompedAfter_lineEnd {chomp : Chomp} {lineEnd others cs : List Char} {c : Char}
    (hc : isLineEnd c = true) :
    chompedAfter chomp lineEnd (others ++ [c]) cs =
      chompedAfter chomp lineEnd others (c :: cs) := by
  unfold chompedAfter
  by_cases hall : cs.all isLineEnd = true
  · simp [hall, hc]
  · simp [hall, hc, chomped]

/-- Only the line ends behind the last other character are chomped. -/
theorem chomped_append {chomp : Chomp} {cs ds : List Char} (h : cs.getLast?.any isLineEnd = false) :
    chomped chomp (cs ++ ds) = cs ++ chomped chomp ds := by
  induction cs with
  | nil => rfl
  | cons c cs ih =>
      have hnot : (isLineEnd c && (cs ++ ds).all isLineEnd) = false := by
        -- the last character is no end of a line
        have hne : c :: cs ≠ [] := List.cons_ne_nil c cs
        have hlast : isLineEnd ((c :: cs).getLast hne) = false := by
          rwa [List.getLast?_eq_some_getLast hne] at h
        rw [Bool.and_eq_false_iff]
        rcases List.mem_cons.mp (List.getLast_mem hne) with heq | hmem
        · exact .inl (heq ▸ hlast)
        · refine .inr (List.all_eq_false.mpr ⟨_, List.mem_append_left ds hmem, ?_⟩)
          rw [hlast]
          exact Bool.false_ne_true
      have htail : cs.getLast?.any isLineEnd = false := by
        cases cs with
        | nil => rfl
        | cons d cs => rwa [List.getLast?_cons_cons] at h
      rw [List.cons_append, chomped, hnot, if_neg Bool.false_ne_true, ih htail, List.cons_append]

theorem chomped_of_getLast? {chomp : Chomp} {cs : List Char}
    (h : cs.getLast?.any isLineEnd = false) :
    chomped chomp cs = cs ++ chomp.kept ['\n'] [] := by
  have happend := @chomped_append chomp cs [] h
  rwa [List.append_nil] at happend

/-- All line ends are kept when the header says so. -/
theorem chomped_keep (cs : List Char) : chomped .keep cs = cs ++ ['\n'] := by
  induction cs with
  | nil => rfl
  | cons c cs ih =>
      rw [chomped, ih]
      split_ifs <;> rfl

/-- At the start of a text nothing but breaks is chomped in another way, unless all of them are
kept. -/
theorem chompedAfter_nil {chomp : Chomp} {cs : List Char}
    (h : cs.all isLineEnd = true → chomp = .keep) :
    chompedAfter chomp [] [] cs = chomped chomp cs := by
  unfold chompedAfter
  split_ifs with hall
  · rw [h hall, chomped_keep]
    rfl
  · rfl

/-! ## Whole texts -/

section Laid

variable {form : BlockForm} {n m j : Nat} {rest : List Char}

/-- The lines of a text are read as what is chomped, within a line and before one. -/
theorem blockFrom_laid (hfolded : form.folded = false) (hindent : form.indent = n + m)
    (hj : j < form.indent) (hgo : goesOn rest = true) {cs : List Char}
    (hprint : ∀ c ∈ cs, isPrintable c = true) :
    (∀ b p, ∃ line, p.line < line ∧
      blockFrom form (.line b) p
          (laid (List.replicate n ' ') (List.replicate m ' ') false cs ++
            '\n' :: (List.replicate j ' ' ++ rest)) =
        .ok ⟨chomped form.chomp cs, ⟨line, j⟩, rest⟩) ∧
    ∀ lineEnd others b line₀, ∃ line, line₀ < line ∧
      blockFrom form (.indentation lineEnd others b) ⟨line₀, n⟩
          (laid (List.replicate n ' ') (List.replicate m ' ') true cs ++
            '\n' :: (List.replicate j ' ' ++ rest)) =
        .ok ⟨chompedAfter form.chomp lineEnd others cs, ⟨line, j⟩, rest⟩ := by
  induction cs with
  | nil =>
      refine ⟨fun b p => ⟨p.line + 1, Nat.lt_succ_self _, ?_⟩, fun lineEnd others b line₀ =>
        ⟨line₀ + 1, Nat.lt_succ_self _, ?_⟩⟩
      · rw [laid, List.nil_append, blockFrom_break_line (by decide), blockFrom_end hj hgo]
        rfl
      · rw [laid, List.nil_append, blockFrom_break_indentation (by decide) (by decide),
          blockFrom_end hj hgo]
        simp [chompedAfter]
  | cons c cs ih =>
      obtain ⟨hc, hcs⟩ := List.forall_mem_cons.mp hprint
      obtain ⟨ihLine, ihIndentation⟩ := ih hcs
      by_cases hend : isLineEnd c = true
      · -- the indentation of the next line follows the break
        have hbreak := isBreak_of_isLineEnd hend hc
        constructor
        · intro b p
          obtain ⟨line, hline, hread⟩ := ihIndentation [c] [] b (p.line + 1)
          refine ⟨line, by omega, ?_⟩
          rw [laid, if_pos hend, List.cons_append, List.append_assoc, blockFrom_break_line hbreak,
            blockFrom_spaces n (by omega), Nat.zero_add, hread, chompedAfter, chomped, hend,
            Bool.true_and]
          rfl
        · intro lineEnd others b line₀
          obtain ⟨line, hline, hread⟩ := ihIndentation lineEnd (others ++ [c]) b (line₀ + 1)
          refine ⟨line, by omega, ?_⟩
          rw [laid, if_pos hend, List.cons_append, List.append_assoc,
            blockFrom_break_indentation hbreak (isBlank_of_isLineEnd hend),
            blockFrom_spaces n (by omega), Nat.zero_add, hread, chompedAfter_lineEnd hend]
      · have hend := Bool.eq_false_of_not_eq_true hend
        have hbreak := isBreak_eq_false_of_isShown (isShown_iff.mpr ⟨hc, hend⟩)
        constructor
        · intro b p
          obtain ⟨line, hline, hread⟩ := ihLine b (p.right 1)
          refine ⟨line, hline, ?_⟩
          rw [laid, hend, if_neg Bool.false_ne_true, if_neg Bool.false_ne_true, List.nil_append,
            List.cons_append, blockFrom_cons_line hbreak, hread, chomped, hend]
          rfl
        · intro lineEnd others b line₀
          obtain ⟨line, hline, hread⟩ := ihLine (isBlank c) ⟨line₀, n + m + 1⟩
          refine ⟨line, hline, ?_⟩
          rw [laid, hend, if_neg Bool.false_ne_true, if_pos rfl, List.append_assoc,
            List.cons_append, blockFrom_spaces m (by omega),
            blockFrom_open hfolded hindent.symm hbreak]
          show Except.map _ (blockFrom form _ ⟨line₀, n + m + 1⟩ _) = _
          rw [hread]
          simp [Except.map, Read.prepend, chompedAfter, chomped, hend]

/-- A first line that gives the depth of the others. -/
theorem blockLines_some {margin line₀ : Nat} {chomp : Chomp} {cs : List Char}
    (hdepth : n + m = margin + 1) (hj : j < margin) (hgo : goesOn rest = true)
    (hprint : ∀ c ∈ cs, isPrintable c = true)
    (hread : chompedAfter chomp [] [] cs = chomped chomp cs) :
    ∃ line, line₀ < line ∧
      blockLines false margin ⟨chomp, some 2⟩ ⟨line₀, 0⟩
          (List.replicate n ' ' ++ (laid (List.replicate n ' ') (List.replicate m ' ') true cs ++
            '\n' :: (List.replicate j ' ' ++ rest))) =
        .ok ⟨chomped chomp cs, ⟨line, j⟩, rest⟩ := by
  let form : BlockForm := ⟨false, chomp, margin - 1 + 2⟩
  have hindent : form.indent = n + m := by
    show margin - 1 + 2 = n + m
    omega
  obtain ⟨line, hline, hlines⟩ :=
    (@blockFrom_laid form n m j rest rfl hindent (by omega) hgo cs hprint).2 [] [] false line₀
  refine ⟨line, hline, ?_⟩
  show blockFrom form _ _ _ = _
  rw [blockFrom_spaces n (by omega), Nat.zero_add, hlines, hread]

theorem leadingLines_spaces {deepest line column : Nat} {breaks rest : List Char} {c : Char}
    (k : Nat) (hc : isLineEnd c = false) (hprint : isPrintable c = true) (hspace : c ≠ ' ') :
    leadingLines deepest breaks ⟨line, column⟩ (List.replicate k ' ' ++ c :: rest) =
      .ok ⟨(max deepest (column + k), breaks), ⟨line, column + k⟩, c :: rest⟩ := by
  induction k generalizing column with
  | zero =>
      have hshown := isShown_iff.mpr ⟨hprint, hc⟩
      simp [leadingLines, hspace, ne_tab_of_isShown hshown, isBreak_eq_false_of_isShown hshown]
  | succ k ih =>
      have hstep := @ih (column + 1)
      rw [List.replicate_succ, List.cons_append, leadingLines, if_pos rfl,
        show column + (k + 1) = column + 1 + k by omega]
      exact hstep

/-- A first line that leaves the depth of the others to the line after it, which opens with no
blank. -/
theorem blockLines_none {margin line₀ : Nat} {chomp : Chomp} {c : Char} {cs : List Char}
    (hdepth : margin ≤ n + m) (hj : j < margin) (hgo : goesOn rest = true)
    (hprint : ∀ d ∈ c :: cs, isPrintable d = true) (hc : isLineEnd c = false) (hspace : c ≠ ' ') :
    ∃ line, line₀ < line ∧
      blockLines false margin ⟨chomp, none⟩ ⟨line₀, 0⟩
          (List.replicate n ' ' ++
            (laid (List.replicate n ' ') (List.replicate m ' ') true (c :: cs) ++
            '\n' :: (List.replicate j ' ' ++ rest))) =
        .ok ⟨chomped chomp (c :: cs), ⟨line, j⟩, rest⟩ := by
  let form : BlockForm := ⟨false, chomp, n + m⟩
  let more := laid (List.replicate n ' ') (List.replicate m ' ') false cs ++
    '\n' :: (List.replicate j ' ' ++ rest)
  have hbreak := isBreak_eq_false_of_isShown (isShown_iff.mpr ⟨hprint c List.mem_cons_self, hc⟩)
  obtain ⟨line, hline, hlines⟩ :=
    (@blockFrom_laid form n m j rest rfl rfl (by show j < n + m; omega) hgo cs
      fun d hd => hprint d (List.mem_cons_of_mem c hd)).1 (isBlank c) ⟨line₀, n + m + 1⟩
  refine ⟨line, hline, ?_⟩
  -- the blanks before the first character are what tells the depth
  have hchars : List.replicate n ' ' ++
      (laid (List.replicate n ' ') (List.replicate m ' ') true (c :: cs) ++
      '\n' :: (List.replicate j ' ' ++ rest)) = List.replicate (n + m) ' ' ++ c :: more := by
    rw [laid, hc, if_neg Bool.false_ne_true, if_pos rfl, List.append_assoc, List.cons_append,
      List.replicate_add, List.append_assoc]
  have hlead := @leadingLines_spaces 0 line₀ 0 [] more c (n + m) hc
    (hprint c List.mem_cons_self) hspace
  rw [Nat.zero_add, Nat.zero_max] at hlead
  have hmax : max (n + m) (max margin 1) = n + m := by omega
  rw [hchars, blockLines, hlead]
  show blockFrom ⟨false, chomp, max (n + m) (max margin 1)⟩ _ _ _ = _
  rw [hmax, blockFrom_open rfl rfl hbreak]
  show Except.map _ (blockFrom form _ ⟨line₀, n + m + 1⟩ more) = _
  rw [hlines, chomped, hc]
  rfl

end Laid

/-! ## First lines -/

/-- Whether a text opens with a space or a break, so that its first line must give the depth of the
others. -/
def opensDeeper (cs : List Char) : Bool :=
  cs.head?.any fun c => isSpace c || isLineEnd c

/-- What the first line of a text says: how the text ends, and how much deeper the other lines are
if that is not seen from them. -/
def headerOf (cs : List Char) : BlockHeader where
  chomp := if !cs.getLast?.any isLineEnd then .strip else if keepsBreaks cs then .keep else .clip
  deeper := if opensDeeper cs then some 2 else none

/-- The signs that are written behind the bar are read back as the header of the text. -/
theorem blockMarks_literalSigns (cs rest : List Char) :
    blockMarks (literalSigns cs ++ '\n' :: rest) = .ok (headerOf cs, '\n' :: rest) := by
  unfold literalSigns headerOf opensDeeper
  split_ifs <;> rfl

/-- A text over indented lines is read from its first line on. -/
theorem block_eq_blockLines (margin : Nat) (p : Place) (cs rest : List Char) :
    block false margin p (literalSigns cs ++ '\n' :: rest) =
      blockLines false margin (headerOf cs) ⟨p.line + 1, 0⟩ rest := by
  rw [block, blockMarks_literalSigns]
  rfl

end DagScaffold.Yaml
