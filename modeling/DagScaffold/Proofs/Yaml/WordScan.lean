import Mathlib
import DagScaffold.Proofs.Yaml.Word

/-!
# Reading words

A word is read back as its text, whatever follows it on the next lines. Plain words end with their
line, since the next line has too little indentation to go on; quoted words end with their quote.

* `Gap.ofBlanks` : the gap of the blanks that were read last;
* `Inline` : plain texts that can stand behind the start of a line;
* `Inline.plain`, `plain_key` : plain texts up to the end of a line and up to the colon of a key;
* `quotedFrom_single`, `quotedFrom_double` : texts between quotes.
-/

namespace DagScaffold.Yaml

open Written

/-! ## Places on a line -/

@[simp]
theorem Place.right_right (p : Place) (m n : Nat) : (p.right m).right n = p.right (m + n) := by
  simp [Place.right, Nat.add_assoc]

@[simp]
theorem Place.right_column (p : Place) (n : Nat) : (p.right n).column = p.column + n := rfl

/-- A character that ends no line moves the place to the right. -/
theorem Place.after_eq_right {p : Place} {c : Char} (h : isBreak c = false) :
    p.after c = p.right 1 := by
  simp [Place.after, Place.right, h]

/-- No mark of a document stands behind the start of a line. -/
theorem atMarker_eq_false {p : Place} (cs : List Char) (h : 0 < p.column) :
    atMarker p cs = false := by
  have hmarker : ∀ marker, isMarker marker p cs = false := by
    intro marker
    unfold isMarker
    split
    · simp [Nat.ne_of_gt h]
    · rfl
  rw [atMarker, hmarker, hmarker]
  rfl

/-! ## Blanks between pieces -/

/-- The gap of some blanks on one line. -/
def Gap.ofBlanks : List Char → Gap
  | [] => .none
  | s :: ss => .blanks (s :: ss)

/-- A gap of blanks stands for these blanks. -/
@[simp]
theorem Gap.fold_ofBlanks (ss : List Char) : (ofBlanks ss).fold = ss := by
  cases ss <;> rfl

/-- One more blank makes a gap of blanks longer. -/
@[simp]
theorem Gap.blank_ofBlanks (ss : List Char) (c : Char) :
    (ofBlanks ss).blank c = ofBlanks (ss ++ [c]) := by
  cases ss <;> rfl

/-! ## Plain words -/

/-- Whether a text goes on at once: it opens with no blank, no break and no comment. -/
def goesOn : List Char → Bool
  | [] => true
  | c :: _ => !isBlank c && !isBreak c && c ≠ '#'

/-- A plain text does not go on with a line that is indented too little. -/
theorem plainFrom_indentation {margin k column line : Nat} {first : Char} {others rest : List Char}
    (hmargin : column + k < margin) (hrest : goesOn rest = true) :
    plainFrom false margin (.breaks first others) ⟨line, column⟩ (List.replicate k ' ' ++ rest) =
      .ok ⟨⟨[], true⟩, ⟨line, column + k⟩, rest⟩ := by
  induction k generalizing column with
  | zero =>
      cases rest with
      | nil => rfl
      | cons c rest =>
          simp only [goesOn, Bool.and_eq_true, Bool.not_eq_true', decide_eq_true_eq] at hrest
          obtain ⟨⟨hblank, hbreak⟩, -⟩ := hrest
          have hstops : stopsAfterGap false margin ⟨line, column⟩ (c :: rest) = true := by
            have hcolumn : column < margin := by omega
            simp [stopsAfterGap, hcolumn]
          simp [plainFrom, hblank, hbreak, hstops, Gap.crossesLine]
  | succ k ih =>
      have hstep := @ih (column + 1) (by omega)
      rw [List.replicate_succ, List.cons_append, plainFrom]
      simp only [show isBlank ' ' = true from rfl, if_true]
      rw [if_neg (by simp), show column + (k + 1) = column + 1 + k by omega]
      exact hstep

/-- A word does not end where another character stands. -/
theorem endsWord_append_eq_false {cs rest : List Char} (h : separates cs.head? = false) :
    endsWord (cs ++ rest) = false := by
  cases cs with
  | nil => exact absurd h (by decide)
  | cons c cs =>
      simp only [separates, List.head?_cons, Option.all_some, isLineEnd, Bool.or_eq_false_iff] at h
      simp [endsWord, isBlank, isBreak, h]

/-- Some characters before those of a plain text that was read. -/
def Read.prependText (cs : List Char) (r : Read Plain) : Read Plain :=
  { r with value := { r.value with text := cs ++ r.value.text } }

/-- Characters are put before a plain text one after the other. -/
theorem map_prependText_prependText (cs ds : List Char) (r : Except Fault (Read Plain)) :
    (r.map (Read.prependText ds)).map (Read.prependText cs) =
      r.map (Read.prependText (cs ++ ds)) := by
  cases r with
  | error fault => rfl
  | ok r =>
      show Except.ok (Read.prependText cs (Read.prependText ds r)) = .ok (.prependText (cs ++ ds) r)
      simp only [Read.prependText, List.append_assoc]

theorem map_prependText_nil (r : Except Fault (Read Plain)) : r.map (Read.prependText []) = r := by
  cases r <;> rfl

/-- A character that neither is blank nor ends the text is read together with the blanks before
it. -/
theorem plainFrom_cons {margin : Nat} {ss cs : List Char} {p : Place} {c : Char}
    (hblank : isBlank c = false) (hbreak : isBreak c = false)
    (hstops : ss ≠ [] → stopsAfterGap false margin p (c :: cs) = false)
    (hends : endsPlain false (c :: cs) = false) :
    plainFrom false margin (.ofBlanks ss) p (c :: cs) =
      (plainFrom false margin .none (p.right 1) cs).map (.prependText (ss ++ [c])) := by
  have hgap : (decide (Gap.ofBlanks ss ≠ .none) && stopsAfterGap false margin p (c :: cs)) =
      false := by
    by_cases hss : ss = []
    · rw [hss]
      rfl
    · rw [hstops hss, Bool.and_false]
  have hstray : isStrayColon false (c :: cs) = false := by
    unfold isStrayColon
    split <;> rfl
  rw [plainFrom, hblank, hbreak, hgap, hstray, hends]
  simp only [Bool.false_eq_true, if_false, Place.after_eq_right hbreak, Gap.fold_ofBlanks]
  congr 1
  funext r
  rw [Read.prependText, List.append_assoc, List.singleton_append]

/-- A plain text holds the pieces of a line with the blanks between them. -/
theorem plainFrom_append {margin : Nat} {cs rest : List Char} {ss : List Char} {p : Place}
    {before : Char} (hshown : ∀ c ∈ cs, isShown c = true) (hkey : hasKeyColon cs = false)
    (hcomment : hasComment before cs = false) (hbefore : ss ≠ [] → before = ' ')
    (hlast : cs.getLast?.any isSpace = false) (hend : cs = [] → ss = [])
    (hcolumn : ss ≠ [] ∨ ' ' ∈ cs → margin ≤ p.column ∧ 0 < p.column) :
    plainFrom false margin (.ofBlanks ss) p (cs ++ rest) =
      (plainFrom false margin .none (p.right cs.length) rest).map (.prependText (ss ++ cs)) := by
  induction cs generalizing ss p before with
  | nil =>
      rw [hend rfl, List.append_nil, map_prependText_nil]
      rfl
  | cons c cs ih =>
      obtain ⟨hc, hcs⟩ := List.forall_mem_cons.mp hshown
      have hbreak := isBreak_eq_false_of_isShown hc
      simp only [hasKeyColon, hasComment, Bool.or_eq_false_iff] at hkey hcomment
      have hlastTail : cs.getLast?.any isSpace = false := by
        cases cs with
        | nil => rfl
        | cons d cs => rwa [List.getLast?_cons_cons] at hlast
      have hnext : (p.right 1).right cs.length = p.right (c :: cs).length := by
        rw [Place.right_right, List.length_cons, Nat.add_comm]
      by_cases hspace : c = ' '
      · -- a space joins the gap, and the text does not end here
        subst hspace
        have hne : cs ≠ [] := by
          rintro rfl
          exact absurd hlast (by decide)
        have hmargin := hcolumn (.inr List.mem_cons_self)
        have hstep := @ih (ss ++ [' ']) (p.right 1) ' ' hcs hkey.2 hcomment.2 (fun _ => rfl)
          hlastTail (fun h => absurd h hne) (fun _ => by rw [Place.right_column]; omega)
        rw [List.cons_append, plainFrom]
        simp only [show isBlank ' ' = true from rfl, if_true]
        rw [if_neg (by simp), Place.after_eq_right hbreak, Gap.blank_ofBlanks, hstep, hnext,
          List.append_assoc, List.singleton_append]
      · -- any other character closes the gap and starts an empty one
        have hblank : isBlank c = false := by
          rw [isBlank_of_isShown hc]
          exact decide_eq_false hspace
        have hstops : ss ≠ [] → stopsAfterGap false margin p (c :: (cs ++ rest)) = false := by
          intro hss
          have hmargin := hcolumn (.inl hss)
          have hnumber : c ≠ '#' := by
            rintro rfl
            rw [hbefore hss] at hcomment
            exact absurd hcomment.1 (by decide)
          have hshallow : ¬p.column < margin := by omega
          simp [stopsAfterGap, hshallow, atMarker_eq_false _ hmargin.2, hnumber]
        have hends : endsPlain false (c :: (cs ++ rest)) = false := by
          by_cases hcolon : c = ':'
          · rw [hcolon, decide_eq_true rfl, Bool.true_and] at hkey
            simp [endsPlain, endsWord_append_eq_false hkey.1]
          · simp [endsPlain, hcolon]
        have hcolumnTail : ([] : List Char) ≠ [] ∨ ' ' ∈ cs →
            margin ≤ (p.right 1).column ∧ 0 < (p.right 1).column := by
          intro h
          have hmargin := hcolumn (.inr (List.mem_cons_of_mem c (h.resolve_left (by simp))))
          rw [Place.right_column]
          omega
        have hstep := @ih [] (p.right 1) c hcs hkey.2 hcomment.2 (fun h => absurd rfl h) hlastTail
          (fun _ => rfl) hcolumnTail
        rw [List.cons_append, plainFrom_cons hblank hbreak hstops hends]
        rw [Gap.ofBlanks, List.nil_append] at hstep
        rw [hstep, map_prependText_prependText, hnext, List.append_assoc, List.singleton_append]

/-- A plain text does not go on behind blank lines with a line that is indented too little. -/
theorem plainFrom_blankLines {margin n k line : Nat} {others rest : List Char} (hk : k < margin)
    (hrest : goesOn rest = true) :
    plainFrom false margin (.breaks '\n' others) ⟨line, 0⟩
      (List.replicate n '\n' ++ (List.replicate k ' ' ++ rest)) =
      .ok ⟨⟨[], true⟩, ⟨line + n, k⟩, rest⟩ := by
  induction n generalizing line others with
  | zero =>
      have hindentation :=
        @plainFrom_indentation margin k 0 line '\n' others rest (by omega) hrest
      rwa [Nat.zero_add] at hindentation
  | succ n ih =>
      have hnext := @ih (line + 1) (others ++ ['\n'])
      rw [List.replicate_succ, List.cons_append, plainFrom]
      simp only [show isBlank '\n' = false from rfl, show isBreak '\n' = true from rfl, if_true,
        Bool.false_eq_true, if_false]
      rw [Nat.add_right_comm, Nat.add_assoc] at hnext
      exact hnext

/-! ## Plain texts behind the start of a line -/

/-- Whether a text can be written plainly behind the start of a line, where no mark of a document
can stand. -/
structure Inline (cs : List Char) : Prop where
  ne_nil : cs ≠ []
  shown : ∀ c ∈ cs, isShown c = true
  first : cs.head? ≠ some ' '
  last : cs.getLast?.any isSpace = false
  mark : opensWithMark cs = false
  colon : hasKeyColon cs = false
  comment : hasComment ' ' cs = false

namespace Inline

variable {cs : List Char}

/-- A text that may be written plainly can be written inside a line. -/
theorem of_plainAllowed (hne : cs ≠ []) (h : plainAllowed cs = true) : Inline cs := by
  have hshown := isShown_of_plainAllowed h
  simp only [plainAllowed, looksLikeMark, Bool.not_eq_true', Bool.or_eq_false_iff] at h
  obtain ⟨⟨⟨⟨hfirst, hlast⟩, -⟩, -⟩, ⟨⟨-, hmark⟩, hcolon⟩, hcomment⟩ := h
  refine ⟨hne, hshown, fun hhead => ?_, hlast, hmark, hcolon, hcomment⟩
  rw [hhead] at hfirst
  exact absurd hfirst (by decide)

/-- A plain word that can be written can be written inside a line. -/
theorem of_fits {text : String} (h : (Word.plain text).Fits) : Inline text.toList :=
  of_plainAllowed (mt String.toList_eq_nil_iff.mp h.1) h.2

/-- The characters of such a text are printable. -/
theorem isPrintable (h : Inline cs) {c : Char} (hc : c ∈ cs) : isPrintable c = true :=
  isPrintable_of_isShown (h.shown c hc)

/-- Such a text goes on at once. -/
theorem goesOn (h : Inline cs) (rest : List Char) : goesOn (cs ++ rest) = true := by
  obtain ⟨c, cs, rfl⟩ := List.exists_cons_of_ne_nil h.ne_nil
  have hshown := h.shown c List.mem_cons_self
  have hspace : c ≠ ' ' := fun hc => h.first (congrArg some hc)
  have hnumber : c ≠ '#' := by
    rintro rfl
    exact absurd h.mark (by simp [opensWithMark, openingMarks])
  rw [List.cons_append, Yaml.goesOn, isBlank_of_isShown hshown, isBreak_eq_false_of_isShown hshown,
    decide_eq_false hspace, decide_eq_true hnumber]
  rfl

/-- A plain text ends with its line, whatever blank lines follow, if the next line has too little
indentation to go on. -/
theorem plain {margin n k : Nat} {rest : List Char} {p : Place} (h : Inline cs) (hk : k < margin)
    (hcolumn : margin ≤ p.column) (hrest : Yaml.goesOn rest = true) :
    plain false margin p (cs ++ '\n' :: (List.replicate n '\n' ++ (List.replicate k ' ' ++ rest))) =
      .ok ⟨⟨cs, true⟩, ⟨p.line + (n + 1), k⟩, rest⟩ := by
  have hscan := @plainFrom_append margin cs
    ('\n' :: (List.replicate n '\n' ++ (List.replicate k ' ' ++ rest))) [] p ' ' h.shown h.colon
    h.comment (fun h => absurd rfl h) h.last (fun _ => rfl) (fun _ => by omega)
  -- the break opens a gap, and the next line is too shallow to go on after it
  have hbreak : plainFrom false margin .none (p.right cs.length)
      ('\n' :: (List.replicate n '\n' ++ (List.replicate k ' ' ++ rest))) =
      .ok ⟨⟨[], true⟩, ⟨p.line + (n + 1), k⟩, rest⟩ := by
    have hnext := @plainFrom_blankLines margin n k (p.line + 1) [] rest hk hrest
    rw [Nat.add_right_comm, Nat.add_assoc] at hnext
    rw [plainFrom]
    exact hnext
  rw [Gap.ofBlanks, hbreak] at hscan
  rw [Yaml.plain, hscan]
  simp only [Except.map, Read.prependText, List.append_nil, List.nil_append]

end Inline

/-! ## Keys -/

/-- Whether a character may stand in a key. -/
def isKeyChar (c : Char) : Bool :=
  c.isAlphanum || c = '_'

/-- The characters of a key are shown. -/
theorem isShown_of_isKeyChar {c : Char} (h : isKeyChar c = true) : isShown c = true := by
  simp only [isKeyChar, Bool.or_eq_true, decide_eq_true_eq] at h
  rcases h with h | rfl
  · simp only [Char.isAlphanum, Char.isAlpha, Char.isUpper, Char.isLower, Char.isDigit,
      Bool.or_eq_true, Bool.and_eq_true, decide_eq_true_eq, ge_iff_le, UInt32.le_iff_toNat_le] at h
    have hnumber : ((65 ≤ c.toNat ∧ c.toNat ≤ 90) ∨ (97 ≤ c.toNat ∧ c.toNat ≤ 122)) ∨
        (48 ≤ c.toNat ∧ c.toNat ≤ 57) := h
    have hends : lineEnds.all (fun d => d.toNat < 48 || 122 < d.toNat) = true := by decide
    refine isShown_iff.mpr ⟨?_, Bool.eq_false_of_not_eq_true fun hline => ?_⟩
    · simp only [isPrintable, Bool.or_eq_true, Bool.and_eq_true, beq_iff_eq, bne_iff_ne,
        decide_eq_true_eq]
      omega
    · have hfar := List.all_eq_true.mp hends c (mem_lineEnds_of_isLineEnd hline)
      simp only [Bool.or_eq_true, decide_eq_true_eq] at hfar
      omega
  · decide

/-- A text without a colon is no key with a value. -/
theorem hasKeyColon_eq_false {cs : List Char} (h : ':' ∉ cs) : hasKeyColon cs = false := by
  induction cs with
  | nil => rfl
  | cons c cs ih =>
      obtain ⟨hc, hcs⟩ := not_or.mp (List.mem_cons.not.mp h)
      rw [hasKeyColon, decide_eq_false (Ne.symm hc), Bool.false_and, ih hcs]
      rfl

/-- A text without a hash has no comment. -/
theorem hasComment_eq_false {before : Char} {cs : List Char} (h : '#' ∉ cs) :
    hasComment before cs = false := by
  induction cs generalizing before with
  | nil => rfl
  | cons c cs ih =>
      obtain ⟨hc, hcs⟩ := not_or.mp (List.mem_cons.not.mp h)
      rw [hasComment, decide_eq_false (Ne.symm hc), Bool.false_and, ih hcs]
      rfl

/-- A key ends before its colon. -/
theorem plain_key {margin : Nat} {cs rest : List Char} {p : Place}
    (hkey : ∀ c ∈ cs, isKeyChar c = true) (hrest : endsWord rest = true) :
    plain false margin p (cs ++ ':' :: rest) =
      .ok ⟨⟨cs, false⟩, p.right cs.length, ':' :: rest⟩ := by
  have hnot : ∀ d, isKeyChar d = false → d ∉ cs := by
    intro d hd hmem
    rw [hkey d hmem] at hd
    exact absurd hd (by decide)
  have hlast : cs.getLast?.any isSpace = false := by
    cases hcs : cs.getLast? with
    | none => rfl
    | some c =>
        refine decide_eq_false ?_
        rintro rfl
        exact hnot ' ' (by decide) (List.mem_of_getLast? hcs)
  -- without a blank in it a key stands at any column
  have hcolumn : ([] : List Char) ≠ [] ∨ ' ' ∈ cs → margin ≤ p.column ∧ 0 < p.column := by
    intro h
    exact absurd (h.resolve_left fun hnil => hnil rfl) (hnot ' ' (by decide))
  have hscan := @plainFrom_append margin cs (':' :: rest) [] p ' '
    (fun c hc => isShown_of_isKeyChar (hkey c hc)) (hasKeyColon_eq_false (hnot ':' (by decide)))
    (hasComment_eq_false (hnot '#' (by decide))) (fun h => absurd rfl h) hlast (fun _ => rfl)
    hcolumn
  have hcolon : plainFrom false margin .none (p.right cs.length) (':' :: rest) =
      .ok ⟨⟨[], false⟩, p.right cs.length, ':' :: rest⟩ := by
    have hends : endsPlain false (':' :: rest) = true := by
      rw [endsPlain, hrest]
      rfl
    have hstray : isStrayColon false (':' :: rest) = false := by
      unfold isStrayColon
      split <;> rfl
    rw [plainFrom, hstray, hends]
    rfl
  rw [Gap.ofBlanks, hcolon] at hscan
  rw [plain, hscan]
  simp only [Except.map, Read.prependText, List.append_nil, List.nil_append]

/-! ## Texts between quotes -/

/-- How a character is read that does not close a text between single quotes. -/
theorem quotedFrom_text {single : Bool} {g : Gap} {p : Place} {c : Char} {cs : List Char}
    (hsingle : (single && decide (c = '\'')) = false) :
    quotedFrom single (.text g) p (c :: cs) =
      if isBlank c then quotedFrom single (.text (g.blank c)) (p.after c) cs
      else if isBreak c then quotedFrom single (.text (g.newLine c)) (p.after c) cs
      else if atMarker p (c :: cs) then .error .quoted
      else if !single && c = '"' then .ok ⟨g.fold, p.after c, cs⟩
      else if !single && c = '\\' then
        (quotedFrom single .escape (p.after c) cs).map (.prepend g.fold)
      else (quotedFrom single (.text .none) (p.after c) cs).map (.prepend (g.fold ++ [c])) := by
  -- a quote after the character would only matter if the character were one itself
  by_cases hquote : ∃ rest, cs = '\'' :: rest
  · obtain ⟨rest, rfl⟩ := hquote
    rw [quotedFrom, hsingle]
    rfl
  · rw [quotedFrom, hsingle]
    · rfl
    · exact fun rest hrest => hquote ⟨rest, hrest⟩

/-- A space between quotes joins the blanks before it. -/
theorem quotedFrom_space {single : Bool} {ss cs : List Char} {p : Place} :
    quotedFrom single (.text (.ofBlanks ss)) p (' ' :: cs) =
      quotedFrom single (.text (.ofBlanks (ss ++ [' ']))) (p.right 1) cs := by
  have hafter : p.after ' ' = p.right 1 := Place.after_eq_right (by decide)
  rw [quotedFrom_text (by simp), hafter, Gap.blank_ofBlanks]
  exact if_pos rfl

/-- Any other character between quotes is read together with the gap before it. -/
theorem quotedFrom_cons {single : Bool} {g : Gap} {cs : List Char} {p : Place} {c : Char}
    (hc : isShown c = true) (hspace : c ≠ ' ') (hcolumn : 0 < p.column)
    (hsingle : (single && decide (c = '\'')) = false)
    (hdouble : (!single && decide (c = '"')) = false)
    (hescape : (!single && decide (c = '\\')) = false) :
    quotedFrom single (.text g) p (c :: cs) =
      (quotedFrom single (.text .none) (p.right 1) cs).map (.prepend (g.fold ++ [c])) := by
  have hbreak := isBreak_eq_false_of_isShown hc
  have hblank : isBlank c = false := by
    rw [isBlank_of_isShown hc]
    exact decide_eq_false hspace
  rw [quotedFrom_text hsingle, hblank, hbreak, atMarker_eq_false _ hcolumn, hdouble, hescape,
    Place.after_eq_right hbreak]
  rfl

/-- Characters are put before a quoted text one after the other. -/
theorem map_prepend_prepend (cs ds : List Char) (r : Except Fault (Read (List Char))) :
    (r.map (Read.prepend ds)).map (Read.prepend cs) = r.map (Read.prepend (cs ++ ds)) := by
  cases r with
  | error fault => rfl
  | ok r =>
      show Except.ok (Read.prepend cs (Read.prepend ds r)) = .ok (Read.prepend (cs ++ ds) r)
      simp only [Read.prepend, List.append_assoc]

/-- The two spaces that open a line between quotes do not count. -/
theorem quotedFrom_opening {single : Bool} {first : Char} {others cs : List Char} {p : Place} :
    quotedFrom single (.text (.breaks first others)) p (' ' :: ' ' :: cs) =
      quotedFrom single (.text (.breaks first others)) (p.right 2) cs := by
  have hafter (p : Place) : p.after ' ' = p.right 1 := Place.after_eq_right (by decide)
  have hblank : isBlank ' ' = true := rfl
  rw [quotedFrom_text (by simp), if_pos hblank, quotedFrom_text (by simp), if_pos hblank, hafter,
    hafter, Place.right_right]
  rfl

/-- Two quotes in a row stand for one, and the text goes on. -/
theorem quotedFrom_quotes {g : Gap} {cs : List Char} {p : Place} (hcolumn : 0 < p.column) :
    quotedFrom true (.text g) p ('\'' :: '\'' :: cs) =
      (quotedFrom true (.text .none) (p.right 2) cs).map (.prepend (g.fold ++ ['\''])) := by
  rw [quotedFrom.eq_2, atMarker_eq_false _ hcolumn]
  rfl

/-- A quote that no other one follows ends the text. -/
theorem quotedFrom_quote {g : Gap} {rest : List Char} {p : Place} (hcolumn : 0 < p.column)
    (hrest : rest.head? ≠ some '\'') :
    quotedFrom true (.text g) p ('\'' :: rest) = .ok ⟨g.fold, p.right 1, rest⟩ := by
  have hmore : ∀ rest', rest = '\'' :: rest' → False := by
    rintro rest' rfl
    exact hrest rfl
  rw [quotedFrom.eq_3 _ _ _ _ _ hmore, atMarker_eq_false _ hcolumn]
  rfl

/-- The gap before the rest of a text between single quotes: blanks on its line, which are not the
end of the line, or breaks that are no line feeds, after which no blank follows. -/
inductive SingleGap : Bool → Gap → Place → List Char → Prop
  | line {ss : List Char} {p : Place} {cs : List Char} (hcolumn : 0 < p.column)
      (hends : ss ≠ [] → cs.head?.any isLineEnd = false) : SingleGap false (.ofBlanks ss) p cs
  | breaks {first : Char} {others : List Char} {p : Place} {cs : List Char} (hfirst : first ≠ '\n')
      (hopens : cs.head?.any isSpace = false) : SingleGap true (.breaks first others) p cs

/-- What opens the line between quotes is no part of the text. -/
theorem SingleGap.opening {opensLine : Bool} {g : Gap} {p : Place} {cs : List Char}
    (h : SingleGap opensLine g p cs) :
    ∃ p', p'.line = p.line ∧ 0 < p'.column ∧ ∀ rest,
      quotedFrom true (.text g) p ((if opensLine then [' ', ' '] else []) ++ rest) =
        quotedFrom true (.text g) p' rest := by
  cases h with
  | line hcolumn hends => exact ⟨p, rfl, hcolumn, fun _ => rfl⟩
  | breaks hfirst hopens => exact ⟨p.right 2, rfl, Nat.succ_pos _, fun _ => quotedFrom_opening⟩

/-- A break that is no line feed joins the gap and stands for itself. -/
theorem SingleGap.newLine {opensLine : Bool} {g : Gap} {p p' : Place} {c : Char} {cs : List Char}
    (h : SingleGap opensLine g p (c :: cs)) (hend : isLineEnd c = true) (hfeed : c ≠ '\n')
    (hopens : cs.head?.any isSpace = false) :
    SingleGap true (g.newLine c) p' cs ∧ (g.newLine c).fold = g.fold ++ [c] := by
  cases h with
  | @line ss _ _ hcolumn hends =>
      obtain rfl : ss = [] := by
        by_contra hss
        have hnot : isLineEnd c = false := hends hss
        rw [hend] at hnot
        cases hnot
      exact ⟨.breaks hfeed hopens, if_neg hfeed⟩
  | @breaks first others _ _ hfirst _ =>
      refine ⟨.breaks hfirst hopens, ?_⟩
      simp [Gap.newLine, Gap.fold, hfirst]

/-- Two characters stand next to each other at the front of a text or behind it. -/
theorem hasPair_cons {first second : Char → Bool} {c : Char} {cs : List Char} :
    hasPair first second (c :: cs) =
      ((first c && cs.head?.any second) || hasPair first second cs) := by
  cases cs <;> simp [hasPair]

/-- A text between single quotes is read up to its closing quote. -/
theorem quotedFrom_single {opensLine : Bool} {g : Gap} {cs rest : List Char} {p : Place}
    (hgap : SingleGap opensLine g p cs) (hfeed : '\n' ∉ cs) (hallowed : singleAllowed cs = true)
    (hrest : rest.head? ≠ some '\'') :
    ∃ p', p.line ≤ p'.line ∧
      quotedFrom true (.text g) p (singleFrom opensLine cs ++ rest) =
        .ok ⟨g.fold ++ cs, p', rest⟩ := by
  induction cs generalizing opensLine g p with
  | nil =>
      obtain ⟨p₁, hline, hcolumn, hopen⟩ := hgap.opening
      refine ⟨p₁.right 1, hline.ge, ?_⟩
      rw [singleFrom, List.append_assoc, hopen, List.append_nil]
      exact quotedFrom_quote hcolumn hrest
  | cons c cs ih =>
      obtain ⟨hc, hcs⟩ := not_or.mp (List.mem_cons.not.mp hfeed)
      simp only [singleAllowed, hasSpacedLineEnd, hasIndentedLine, hasPair_cons, needsSpelling,
        List.any_cons, Bool.not_eq_true', Bool.or_eq_false_iff, Bool.not_eq_false'] at hallowed
      obtain ⟨⟨⟨hspaced, hspacedTail⟩, hindented, hindentedTail⟩, hprint, hprintTail⟩ := hallowed
      have hallowedTail : singleAllowed cs = true := by
        simp [singleAllowed, hasSpacedLineEnd, hasIndentedLine, needsSpelling, hspacedTail,
          hindentedTail, hprintTail]
      rw [singleFrom]
      by_cases hend : isLineEnd c = true
      · -- a break joins the gap, and the next line is opened by two spaces
        have hbreak := isBreak_of_isLineEnd hend hprint
        rw [hend, Bool.true_and] at hindented
        obtain ⟨hnext, hfold⟩ :=
          @SingleGap.newLine _ _ _ (p.after c) _ _ hgap hend (Ne.symm hc) hindented
        obtain ⟨p', hline, hread⟩ := ih hnext hcs hallowedTail
        refine ⟨p', ?_, ?_⟩
        · rw [Place.after, if_pos hbreak] at hline
          exact Nat.le_of_succ_le hline
        · have hquote : c ≠ '\'' := by
            rintro rfl
            exact absurd hend (by decide)
          rw [if_pos hend, List.cons_append, quotedFrom_text (by simp [hquote]),
            isBlank_of_isLineEnd hend, if_neg Bool.false_ne_true, if_pos hbreak, hread, hfold,
            List.append_assoc, List.singleton_append]
      · obtain ⟨p₁, hline, hcolumn, hopen⟩ := hgap.opening
        have hc : isShown c = true := isShown_iff.mpr ⟨hprint, Bool.eq_false_of_not_eq_true hend⟩
        rw [if_neg hend, List.append_assoc, List.append_assoc, hopen]
        by_cases hspace : c = ' '
        · -- a space joins the blanks before it, and it is not at the start of a line
          subst hspace
          cases hgap with
          | breaks hfirst hopens => exact absurd (show true = false from hopens) (by decide)
          | @line ss =>
              rw [show isSpace ' ' = true from rfl, Bool.true_and] at hspaced
              have hgap : SingleGap false (.ofBlanks (ss ++ [' '])) (p₁.right 1) cs :=
                .line (Nat.lt_add_right 1 hcolumn) fun _ => hspaced
              obtain ⟨p', hline', hread⟩ := ih hgap hcs hallowedTail
              refine ⟨p', hline.ge.trans hline', ?_⟩
              show quotedFrom true _ p₁ (' ' :: (singleFrom false cs ++ rest)) = _
              rw [quotedFrom_space, hread, Gap.fold_ofBlanks, Gap.fold_ofBlanks, List.append_assoc,
                List.singleton_append]
        · have hnone : ∀ n, SingleGap false .none (p₁.right n) cs := fun n =>
            @SingleGap.line [] _ _ (Nat.lt_add_right n hcolumn) fun hss => absurd rfl hss
          by_cases hquote : c = '\''
          · subst hquote
            obtain ⟨p', hline', hread⟩ := ih (hnone 2) hcs hallowedTail
            refine ⟨p', hline.ge.trans hline', ?_⟩
            show quotedFrom true _ p₁ ('\'' :: '\'' :: (singleFrom false cs ++ rest)) = _
            rw [quotedFrom_quotes hcolumn, hread]
            simp [Except.map, Read.prepend, Gap.fold]
          · obtain ⟨p', hline', hread⟩ := ih (hnone 1) hcs hallowedTail
            refine ⟨p', hline.ge.trans hline', ?_⟩
            rw [if_neg hquote, List.singleton_append,
              quotedFrom_cons hc hspace hcolumn (by simp [hquote]) rfl rfl, hread]
            simp [Except.map, Read.prepend, Gap.fold]

/-- The digits of an escape by number are read up to the last one. -/
theorem quotedFrom_digits {ds : List Nat} {value : Nat} {p : Place} {rest : List Char}
    (hds : ∀ d ∈ ds, d < 16) (hne : ds ≠ []) (hvalid : (digitsValue value ds).isValidChar) :
    quotedFrom false (.digits ds.length value) p (ds.map hexDigit ++ rest) =
      (quotedFrom false (.text .none) (p.right ds.length) rest).map
        (.prepend [Char.ofNat (digitsValue value ds)]) := by
  induction ds generalizing value p with
  | nil => exact absurd rfl hne
  | cons d ds ih =>
      obtain ⟨hd, hds⟩ := List.forall_mem_cons.mp hds
      have hafter : p.after (hexDigit d) = p.right 1 :=
        Place.after_eq_right (isBreak_eq_false_of_isShown (isShown_hexDigit hd))
      have hvalue : Text.hexValue (hexDigit d) = some d := (Text.hexValue_digitChar hd).2
      rw [List.map_cons, List.cons_append, quotedFrom, hvalue, hafter]
      by_cases hlast : ds = []
      · -- the last digit gives the character
        subst hlast
        exact if_pos hvalid
      · have hmore : 1 < (d :: ds).length := by
          have hpos := List.length_pos_of_ne_nil hlast
          rw [List.length_cons]
          omega
        have hstep := @ih (16 * value + d) (p.right 1) hds hlast hvalid
        simp only [if_pos hmore]
        rw [Place.right_right, Nat.add_comm 1] at hstep
        exact hstep

/-- A spelled character is read as the character. -/
theorem quotedFrom_spelled {ss rest : List Char} {p : Place} {c : Char} (hcolumn : 0 < p.column) :
    ∃ n, quotedFrom false (.text (.ofBlanks ss)) p (spelled c ++ rest) =
      (quotedFrom false (.text .none) (p.right n) rest).map (.prepend (ss ++ [c])) := by
  have hopen : ∀ cs, quotedFrom false (.text (.ofBlanks ss)) p ('\\' :: cs) =
      (quotedFrom false .escape (p.right 1) cs).map (Read.prepend ss) := by
    intro cs
    rw [quotedFrom_text rfl, atMarker_eq_false _ hcolumn, Gap.fold_ofBlanks]
    rfl
  by_cases hc : c ∈ lettered
  · -- one letter after the backslash
    obtain ⟨e, hspelled, he, hescape⟩ := spelled_of_mem_lettered hc
    refine ⟨2, ?_⟩
    rw [hspelled]
    show quotedFrom false (.text (.ofBlanks ss)) p ('\\' :: e :: rest) = _
    have hbreak := isBreak_eq_false_of_isShown he
    rw [hopen, quotedFrom, hbreak, hescape, Place.after_eq_right hbreak, Place.right_right]
    show ((quotedFrom false (.text .none) (p.right 2) rest).map (Read.prepend [c])).map
      (Read.prepend ss) = _
    rw [map_prepend_prepend]
  · -- a letter that says how many digits follow
    obtain ⟨e, width, hspelled, he, hletter, hdigits, hwidth, hlt⟩ := spelled_of_not_mem_lettered hc
    obtain ⟨ds, hlength, hds, hmap, hvalue⟩ := exists_hexDigits_eq_map hwidth hlt
    refine ⟨2 + width, ?_⟩
    rw [hspelled, hmap]
    show quotedFrom false (.text (.ofBlanks ss)) p ('\\' :: e :: (ds.map hexDigit ++ rest)) = _
    have hbreak := isBreak_eq_false_of_isShown he
    have hne : ds ≠ [] := List.ne_nil_of_length_pos (by rw [hlength]; exact hwidth)
    have hvalid : (digitsValue 0 ds).isValidChar := by
      rw [hvalue]
      exact c.valid
    have hread := @quotedFrom_digits ds 0 ((p.right 1).right 1) rest hds hne hvalid
    rw [hlength, hvalue, Char.ofNat_toNat, Place.right_right, Place.right_right] at hread
    rw [hopen, quotedFrom, hbreak, hletter, hdigits, Place.after_eq_right hbreak, Place.right_right]
    show (quotedFrom false (.digits width 0) (p.right 2) (ds.map hexDigit ++ rest)).map
      (Read.prepend ss) = _
    rw [hread, map_prepend_prepend]

/-- A text between double quotes is read up to its closing quote. -/
theorem quotedFrom_double {ss cs rest : List Char} {p : Place} (hcolumn : 0 < p.column) :
    ∃ n, quotedFrom false (.text (.ofBlanks ss)) p (cs.flatMap doubleChar ++ '"' :: rest) =
      .ok ⟨ss ++ cs, p.right n, rest⟩ := by
  induction cs generalizing ss p with
  | nil =>
      refine ⟨1, ?_⟩
      rw [List.flatMap_nil, List.nil_append, List.append_nil, quotedFrom_text rfl,
        atMarker_eq_false _ hcolumn, Gap.fold_ofBlanks]
      rfl
  | cons c cs ih =>
      rw [List.flatMap_cons, List.append_assoc]
      by_cases hshow : (isPrintable c && !isLineEnd c && c ≠ '"' && c ≠ '\\') = true
      · rw [doubleChar, if_pos hshow, List.singleton_append]
        simp only [Bool.and_eq_true, decide_eq_true_eq] at hshow
        obtain ⟨⟨hc, hquote⟩, hslash⟩ := hshow
        by_cases hspace : c = ' '
        · subst hspace
          obtain ⟨n, hn⟩ := @ih (ss ++ [' ']) (p.right 1) (Nat.lt_add_right 1 hcolumn)
          refine ⟨1 + n, ?_⟩
          rw [quotedFrom_space, hn, Place.right_right, List.append_assoc, List.singleton_append]
        · obtain ⟨n, hn⟩ := @ih [] (p.right 1) (Nat.lt_add_right 1 hcolumn)
          refine ⟨1 + n, ?_⟩
          rw [Gap.ofBlanks, Place.right_right, List.nil_append] at hn
          rw [quotedFrom_cons (Bool.and_eq_true_iff.mpr hc) hspace hcolumn rfl (by simp [hquote])
            (by simp [hslash]), hn, Gap.fold_ofBlanks]
          simp only [Except.map, Read.prepend, List.append_assoc, List.singleton_append]
      · rw [doubleChar, if_neg hshow]
        obtain ⟨m, hm⟩ := @quotedFrom_spelled ss (cs.flatMap doubleChar ++ '"' :: rest) p c hcolumn
        obtain ⟨n, hn⟩ := @ih [] (p.right m) (Nat.lt_add_right m hcolumn)
        refine ⟨m + n, ?_⟩
        rw [Gap.ofBlanks, Place.right_right, List.nil_append] at hn
        rw [hm, hn]
        simp only [Except.map, Read.prepend, List.append_assoc, List.singleton_append]

end DagScaffold.Yaml
