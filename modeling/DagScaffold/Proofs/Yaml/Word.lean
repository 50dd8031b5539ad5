import Mathlib
import DagScaffold.Yaml.Written

/-!
# Texts that are not written over indented lines

A text that is not written over indented lines is written plainly, between single quotes or between
double quotes. Its written form holds no line feed, and all of its characters can be shown.

* `isShown` : a character that stands on a line as itself;
* `Word`, `Word.chars` : a text with the way in which it is written, and its written form;
* `written_eq_chars` : a text that is not written over indented lines is written as a word;
* `readable_of_isPrintable` : a text of characters that can be shown is read as it is.
-/

namespace DagScaffold.Yaml

open Written

/-! ## Characters that stand for themselves -/

/-- Whether a character stands on a line as itself. -/
def isShown (c : Char) : Bool :=
  isPrintable c && !isLineEnd c

/-- What is printable may stand in a text that is read. -/
theorem isAllowed_of_isPrintable {c : Char} (h : isPrintable c = true) : isAllowed c = true := by
  have hvalid : c.toNat < 0xd800 ∨ (0xdfff < c.toNat ∧ c.toNat < 0x110000) := c.valid
  simp only [isPrintable, Bool.and_eq_true, Bool.or_eq_true, beq_iff_eq, decide_eq_true_eq,
    bne_iff_ne] at h
  simp only [isAllowed, Bool.and_eq_true, Bool.or_eq_true, beq_iff_eq, decide_eq_true_eq]
  omega

/-- A character is shown when it is printable and ends no line. -/
theorem isShown_iff {c : Char} : isShown c = true ↔ isPrintable c = true ∧ isLineEnd c = false := by
  rw [isShown, Bool.and_eq_true, Bool.not_eq_true']

theorem isPrintable_of_isShown {c : Char} (h : isShown c = true) : isPrintable c = true :=
  (isShown_iff.mp h).1

theorem ne_of_isPrintable {c d : Char} (hc : isPrintable c = true) (hd : isPrintable d = false) :
    c ≠ d := by
  rintro rfl
  rw [hc] at hd
  exact absurd hd (by decide)

/-- The characters that end a line. -/
def lineEnds : List Char :=
  ['\n', '\r', nextLine, lineSeparator, paragraphSeparator]

/-- The line ends are few. -/
theorem mem_lineEnds_of_isLineEnd {c : Char} (h : isLineEnd c = true) : c ∈ lineEnds := by
  simp only [isLineEnd, Bool.or_eq_true, decide_eq_true_eq] at h
  simp only [lineEnds, List.mem_cons, List.not_mem_nil, or_false]
  tauto

theorem isLineEnd_eq_false_of_isShown {c : Char} (h : isShown c = true) : isLineEnd c = false :=
  (isShown_iff.mp h).2

/-- A character that is shown breaks no line. -/
theorem isBreak_eq_false_of_isShown {c : Char} (h : isShown c = true) : isBreak c = false := by
  have hend := isLineEnd_eq_false_of_isShown h
  simp only [isLineEnd, Bool.or_eq_false_iff] at hend
  simp [isBreak, hend]

/-- A tab is not shown. -/
theorem ne_tab_of_isShown {c : Char} (h : isShown c = true) : c ≠ '\t' := by
  rintro rfl
  exact absurd h (by decide)

/-- The only blank that stands for itself is the space. -/
theorem isBlank_of_isShown {c : Char} (h : isShown c = true) : isBlank c = decide (c = ' ') := by
  simp [isBlank, ne_tab_of_isShown h]

/-- A line end is no blank. -/
theorem isBlank_of_isLineEnd {c : Char} (h : isLineEnd c = true) : isBlank c = false := by
  have hall : lineEnds.all (fun d => !isBlank d) = true := by decide
  simpa using List.all_eq_true.mp hall c (mem_lineEnds_of_isLineEnd h)

/-- A break that can be shown is one that a reader goes through. -/
theorem isBreak_of_isLineEnd {c : Char} (hend : isLineEnd c = true) (hc : isPrintable c = true) :
    isBreak c = true := by
  have hreturn := ne_of_isPrintable hc (show isPrintable '\r' = false by decide)
  have hnext := ne_of_isPrintable hc (show isPrintable nextLine = false by decide)
  simpa [isLineEnd, isBreak, hreturn, hnext] using hend

/-- A text of characters that can be shown holds no break that is written in another way. -/
theorem unifyBreaks_eq_self {cs : List Char} (h : ∀ c ∈ cs, isPrintable c = true) :
    unifyBreaks cs = cs := by
  induction cs with
  | nil => rfl
  | cons c cs ih =>
      obtain ⟨hc, hcs⟩ := List.forall_mem_cons.mp h
      have hreturn := ne_of_isPrintable hc (show isPrintable '\r' = false by decide)
      have hnext := ne_of_isPrintable hc (show isPrintable nextLine = false by decide)
      rw [unifyBreaks, if_neg (not_or.mpr ⟨hreturn, hnext⟩), ih hcs]
      intro rest hreturn'
      exact absurd hreturn' hreturn

/-- A text of characters that can be shown is read as it is. -/
theorem readable_of_isPrintable {s : String} (h : ∀ c ∈ s.toList, isPrintable c = true) :
    readable s = some s.toList := by
  have hmark : dropMark s.toList = s.toList := by
    cases hlist : s.toList with
    | nil => rfl
    | cons c cs =>
        have hc : isPrintable c = true := h c (hlist ▸ List.mem_cons_self)
        exact if_neg (ne_of_isPrintable hc (by decide))
  have hall : s.toList.all isAllowed = true :=
    List.all_eq_true.mpr fun c hc => isAllowed_of_isPrintable (h c hc)
  simp only [readable, hmark, hall, if_true]
  rw [unifyBreaks_eq_self h]

/-! ## Words -/

/-- A text that is not written over indented lines, by the way in which it is written. -/
inductive Word where
  | plain (text : String)
  | single (text : String)
  | double (text : String)
  deriving DecidableEq, Repr

namespace Word

/-- The text of a word. -/
def text : Word → String
  | plain s => s
  | single s => s
  | double s => s

/-- The way in which a word is written. -/
def style : Word → Style
  | plain _ => .plain
  | single _ => .single
  | double _ => .double

/-- The written form of a word. -/
def chars : Word → List Char
  | plain s => s.toList
  | single s => '\'' :: singleFrom false s.toList
  | double s => '"' :: s.toList.flatMap doubleChar ++ ['"']

/-- Whether the text of a word can be written in the way of the word. -/
def Fits : Word → Prop
  | plain s => s ≠ "" ∧ plainAllowed s.toList = true
  | single s => '\n' ∉ s.toList ∧ singleAllowed s.toList = true
  | double _ => True

/-- The word of a text that is not written over indented lines. -/
def ofText (s : String) : Word :=
  match Written.style s with
  | .plain => plain s
  | .single => single s
  | _ => double s

/-- The word for a text has that text. -/
@[simp]
theorem text_ofText (s : String) : (ofText s).text = s := by
  unfold ofText
  split <;> rfl

end Word

/-! ## Characters between quotes -/

/-- Between single quotes there are the characters of the text, quotes and the blanks that open
lines. -/
theorem mem_singleFrom {opensLine : Bool} {cs : List Char} {d : Char}
    (h : d ∈ singleFrom opensLine cs) :
    d ∈ cs ∨ d = '\'' ∨ d = ' ' := by
  have hopen {b : Bool} (h : d ∈ (if b then [' ', ' '] else [])) : d = ' ' := by
    cases b with
    | false => exact absurd h List.not_mem_nil
    | true => simpa using h
  induction cs generalizing opensLine with
  | nil =>
      rcases List.mem_append.mp h with h | h
      · exact .inr (.inr (hopen h))
      · exact .inr (.inl (List.mem_singleton.mp h))
  | cons c cs ih =>
      have hchar : d ∈ (if c = '\'' then ['\'', '\''] else [c]) → d = c := by
        split_ifs with hquote <;> simp [hquote]
      have hmore {b : Bool} (h : d ∈ singleFrom b cs) : d ∈ c :: cs ∨ d = '\'' ∨ d = ' ' :=
        (ih h).imp_left (List.mem_cons_of_mem c)
      rw [singleFrom] at h
      by_cases hend : isLineEnd c = true
      · rw [if_pos hend] at h
        rcases List.mem_cons.mp h with rfl | h
        · exact .inl List.mem_cons_self
        · exact hmore h
      · rw [if_neg hend] at h
        rcases List.mem_append.mp h with h | h
        · rcases List.mem_append.mp h with h | h
          · exact .inr (.inr (hopen h))
          · exact .inl (hchar h ▸ List.mem_cons_self)
        · exact hmore h

/-- The digit to the base sixteen with the value `d`, as it is written between double quotes. -/
def hexDigit (d : Nat) : Char :=
  (Nat.digitChar d).toUpper

/-- Digits are shown. -/
theorem isShown_hexDigit {d : Nat} (hd : d < 16) : isShown (hexDigit d) = true := by
  have hall : ∀ k : Fin 16, isShown (hexDigit k) = true := by decide
  exact hall ⟨d, hd⟩

/-- The value of a row of digits that follows a number. -/
def digitsValue (n : Nat) (ds : List Nat) : Nat :=
  ds.foldl (fun value d => 16 * value + d) n

/-- A number is the value of the digits that write it. -/
theorem exists_toDigits_eq_map (n : Nat) :
    ∃ ds : List Nat, (∀ d ∈ ds, d < 16) ∧ (Nat.toDigits 16 n).map Char.toUpper = ds.map hexDigit ∧
      digitsValue 0 ds = n := by
  induction n using Nat.strong_induction_on with
  | _ n ih =>
      by_cases hn : n < 16
      · refine ⟨[n], by simpa using hn, ?_, by simp [digitsValue]⟩
        rw [Nat.toDigits_of_lt_base hn]
        rfl
      · -- the remainder is the last digit, and the digits before it write the quotient
        obtain ⟨ds, hds, hmap, hvalue⟩ := ih (n / 16) (by omega)
        refine ⟨ds ++ [n % 16], ?_, ?_, ?_⟩
        · intro d hd
          rcases List.mem_append.mp hd with hd | hd
          · exact hds d hd
          · rw [List.mem_singleton.mp hd]
            exact Nat.mod_lt _ (by decide)
        · rw [Nat.toDigits_of_base_le (by decide) (by omega), List.map_append, hmap,
            List.map_append]
          rfl
        · rw [digitsValue, List.foldl_append]
          show 16 * digitsValue 0 ds + n % 16 = n
          omega

/-- Zeros in front do not change the value of a row of digits. -/
theorem digitsValue_replicate_zero (k : Nat) (ds : List Nat) :
    digitsValue 0 (List.replicate k 0 ++ ds) = digitsValue 0 ds := by
  induction k with
  | zero => rfl
  | succ k ih => exact ih

/-- The digits of a number that has at most `width` of them. -/
theorem exists_hexDigits_eq_map {width n : Nat} (hwidth : 0 < width) (hn : n < 16 ^ width) :
    ∃ ds : List Nat, ds.length = width ∧ (∀ d ∈ ds, d < 16) ∧
      hexDigits width n = ds.map hexDigit ∧ digitsValue 0 ds = n := by
  obtain ⟨ds, hds, hmap, hvalue⟩ := exists_toDigits_eq_map n
  have hlength : ds.length ≤ width := by
    have hdigits := (Nat.length_toDigits_le_iff (by decide) hwidth).mpr hn
    have hsame := congrArg List.length hmap
    rw [List.length_map, List.length_map] at hsame
    omega
  -- zeros in front fill the row up to its width
  refine ⟨List.replicate (width - ds.length) 0 ++ ds, ?_, ?_, ?_, ?_⟩
  · rw [List.length_append, List.length_replicate]
    omega
  · intro d hd
    rcases List.mem_append.mp hd with hd | hd
    · rw [List.eq_of_mem_replicate hd]
      decide
    · exact hds d hd
  · rw [hexDigits, hmap, List.map_append, List.map_replicate, List.length_map]
    rfl
  · rw [digitsValue_replicate_zero, hvalue]

/-- The digits of a number that fits its width are shown. -/
theorem isShown_of_mem_hexDigits {width n : Nat} {c : Char} (hwidth : 0 < width)
    (hn : n < 16 ^ width) (hc : c ∈ hexDigits width n) : isShown c = true := by
  obtain ⟨ds, -, hds, hmap, -⟩ := exists_hexDigits_eq_map hwidth hn
  rw [hmap] at hc
  obtain ⟨d, hd, rfl⟩ := List.mem_map.mp hc
  exact isShown_hexDigit (hds d hd)

/-- The characters that are spelled by one letter. -/
def lettered : List Char :=
  ['"', '\\', '\x00', '\x07', '\x08', '\t', '\n', '\x0b', '\x0c', '\r', '\x1b', nextLine,
    lineSeparator, paragraphSeparator]

/-- Some characters are spelled by a letter behind a backslash, which is read back. -/
theorem spelled_of_mem_lettered {c : Char} (hc : c ∈ lettered) :
    ∃ e, spelled c = ['\\', e] ∧ isShown e = true ∧ simpleEscape e = some c := by
  simp only [lettered, List.mem_cons, List.not_mem_nil, or_false] at hc
  rcases hc with rfl | rfl | rfl | rfl | rfl | rfl | rfl | rfl | rfl | rfl | rfl | rfl | rfl |
    rfl <;>
    exact ⟨_, rfl, by decide, rfl⟩

/-- All other characters are spelled by their number, with enough digits for it. -/
theorem spelled_of_not_mem_lettered {c : Char} (hc : c ∉ lettered) :
    ∃ e width, spelled c = '\\' :: e :: hexDigits width c.toNat ∧ isShown e = true ∧
      simpleEscape e = none ∧ escapeDigits e = some width ∧ 0 < width ∧ c.toNat < 16 ^ width := by
  have hvalid : c.toNat < 0xd800 ∨ (0xdfff < c.toNat ∧ c.toNat < 0x110000) := c.valid
  simp only [lettered, List.mem_cons, List.not_mem_nil, or_false, not_or] at hc
  -- the code point says how many digits are written
  simp only [spelled, hc, if_false]
  by_cases hbyte : c.toNat ≤ 0xff
  · rw [if_pos hbyte]
    exact ⟨'x', 2, rfl, by decide, rfl, rfl, by decide, by omega⟩
  · rw [if_neg hbyte]
    by_cases hplane : c.toNat ≤ 0xffff
    · rw [if_pos hplane]
      exact ⟨'u', 4, rfl, by decide, rfl, rfl, by decide, by omega⟩
    · rw [if_neg hplane]
      exact ⟨'U', 8, rfl, by decide, rfl, rfl, by decide, by omega⟩

/-- A spelled character is written in characters that are shown. -/
theorem isShown_of_mem_spelled {c d : Char} (hd : d ∈ spelled c) : isShown d = true := by
  by_cases hc : c ∈ lettered
  · obtain ⟨e, hspelled, he, -⟩ := spelled_of_mem_lettered hc
    rw [hspelled] at hd
    rcases List.mem_cons.mp hd with rfl | hd
    · decide
    · rw [List.mem_singleton.mp hd, he]
  · obtain ⟨e, width, hspelled, he, -, -, hwidth, hlt⟩ := spelled_of_not_mem_lettered hc
    rw [hspelled] at hd
    rcases List.mem_cons.mp hd with rfl | hd
    · decide
    · rcases List.mem_cons.mp hd with rfl | hd
      · exact he
      · exact isShown_of_mem_hexDigits hwidth hlt hd

/-- Between double quotes every character is written in characters that are shown. -/
theorem isShown_of_mem_doubleChar {c d : Char} (hd : d ∈ doubleChar c) : isShown d = true := by
  unfold doubleChar at hd
  split at hd
  next hc =>
    rw [List.mem_singleton.mp hd]
    simp only [Bool.and_eq_true] at hc
    exact Bool.and_eq_true_iff.mpr hc.1.1
  next => exact isShown_of_mem_spelled hd

/-! ## The written forms of words -/

/-- A plain text holds characters that are shown. -/
theorem isShown_of_plainAllowed {cs : List Char} (h : plainAllowed cs = true) :
    ∀ c ∈ cs, isShown c = true := by
  intro c hc
  simp only [plainAllowed, needsSpelling, Bool.not_eq_true', Bool.or_eq_false_iff] at h
  obtain ⟨⟨⟨-, hend⟩, hprint⟩, -⟩ := h
  exact isShown_iff.mpr ⟨by simpa using List.any_eq_false.mp hprint c hc,
    Bool.eq_false_of_not_eq_true (List.any_eq_false.mp hend c hc)⟩

/-- A text that needs no spelling is printable. -/
theorem isPrintable_of_needsSpelling {cs : List Char} (h : needsSpelling cs = false) :
    ∀ c ∈ cs, isPrintable c = true := by
  intro c hc
  simpa using List.any_eq_false.mp h c hc

/-- The written form of a word has no line feed, and its characters can be shown. -/
theorem Word.isPrintable_of_mem_chars {w : Word} (hw : w.Fits) :
    ∀ c ∈ w.chars, isPrintable c = true ∧ c ≠ '\n' := by
  have hfeed : ∀ c, isShown c = true → isPrintable c = true ∧ c ≠ '\n' := by
    intro c hc
    refine ⟨isPrintable_of_isShown hc, ?_⟩
    rintro rfl
    exact absurd hc (by decide)
  cases w with
  | plain s => exact fun c hc => hfeed c (isShown_of_plainAllowed hw.2 c hc)
  | single s =>
      obtain ⟨hnot, hallowed⟩ := hw
      simp only [singleAllowed, Bool.not_eq_true', Bool.or_eq_false_iff] at hallowed
      intro c hc
      rcases List.mem_cons.mp hc with rfl | hc
      · exact hfeed _ (by decide)
      · rcases mem_singleFrom hc with hc | rfl | rfl
        · exact ⟨isPrintable_of_needsSpelling hallowed.2 c hc, fun heq => hnot (heq ▸ hc)⟩
        · exact hfeed _ (by decide)
        · exact hfeed _ (by decide)
  | double s =>
      intro c hc
      rw [chars, List.cons_append, List.mem_cons, List.mem_append, List.mem_flatMap] at hc
      rcases hc with rfl | ⟨d, -, hc⟩ | hc
      · exact hfeed _ (by decide)
      · exact hfeed c (isShown_of_mem_doubleChar hc)
      · exact hfeed c (List.mem_singleton.mp hc ▸ by decide)

/-- A text without line feeds keeps its end. -/
theorem dropEndFeeds_eq_self {cs : List Char} (h : '\n' ∉ cs) : dropEndFeeds cs = cs := by
  rw [dropEndFeeds, List.dropWhile_eq_self_iff.mpr, List.reverse_reverse]
  intro hlength hfeed
  have hmem := List.getElem_mem hlength
  rw [of_decide_eq_true hfeed] at hmem
  exact h (List.mem_reverse.mp hmem)

/-- A text without line feeds is one line, which gets no indentation. -/
theorem indentLines_eq_self {indent cs : List Char} (h : '\n' ∉ cs) :
    indentLines indent cs = cs := by
  induction cs with
  | nil => rfl
  | cons c cs ih =>
      obtain ⟨hc, hcs⟩ := not_or.mp (List.mem_cons.not.mp h)
      rw [indentLines, List.flatMap_cons, if_neg (Ne.symm hc), ← indentLines, ih hcs]
      rfl

/-- No text is written over folded lines. -/
theorem style_ne_folded (s : String) : Written.style s ≠ .folded := by
  unfold Written.style
  dsimp only
  split_ifs <;> decide

/-- The word for a text can be written in its style. -/
theorem fits_ofText (s : String) : (Word.ofText s).Fits := by
  unfold Word.ofText
  split
  next hstyle =>
    simp only [Written.style] at hstyle
    split_ifs at hstyle with hfeed hliteral hplain
    obtain ⟨hmeans, hallowed⟩ := Bool.and_eq_true_iff.mp hplain
    refine ⟨?_, hallowed⟩
    rintro rfl
    exact absurd hmeans (by decide)
  next hstyle =>
    simp only [Written.style] at hstyle
    split_ifs at hstyle with hfeed hliteral hplain hsingle
    exact ⟨hfeed, hsingle⟩
  next => trivial

section NotLiteral

variable {s : String} (h : Written.style s ≠ .literal)

include h

/-- A text that is not written over indented lines is written as its word, and in its style. -/
theorem form_and_style_eq :
    form s = (Word.ofText s).chars ∧ (Word.ofText s).style = Written.style s := by
  unfold form Word.ofText
  cases hstyle : Written.style s with
  | plain => exact ⟨rfl, rfl⟩
  | single => exact ⟨rfl, rfl⟩
  | double => exact ⟨rfl, rfl⟩
  | literal => exact absurd hstyle h
  | folded => exact absurd hstyle (style_ne_folded s)

theorem form_eq_chars : form s = (Word.ofText s).chars :=
  (form_and_style_eq h).1

theorem style_ofText : (Word.ofText s).style = Written.style s :=
  (form_and_style_eq h).2

/-- The written form of a text that is not written over indented lines. -/
theorem written_eq_chars (indent : String) : written indent s = .ofList (Word.ofText s).chars := by
  have hfeed : '\n' ∉ (Word.ofText s).chars := fun hmem =>
    (Word.isPrintable_of_mem_chars (fits_ofText s) _ hmem).2 rfl
  rw [written, form_eq_chars h, dropEndFeeds_eq_self hfeed, indentLines_eq_self hfeed]

end NotLiteral

end DagScaffold.Yaml
