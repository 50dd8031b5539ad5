import Mathlib
import DagScaffold.Json.Reader

/-!
# Reading printed texts and numbers

The printed form of a text or of an integer is followed by a comma, by a line feed or by nothing.
There a reader finds its end, whatever the text holds, and gives back what was printed.

* `Follows`, `Reader.Takes` : what may follow a printed value, and readers that give back the value;
* `quoted_printed` : the characters between quotes, with their escapes;
* `number_toDigits` : the digits of a number;
* `Reader.takes_text`, `takes_flag`, `takes_integer` : the values without parts.
-/

namespace DagScaffold.Json

open DagScaffold.Record

/-! ## Blanks -/

/-- Blanks are skipped, however many they are. -/
theorem skipBlanks_append {blanks : List Char} (h : ∀ c ∈ blanks, isSeparator c = true)
    (cs : List Char) : skipBlanks (blanks ++ cs) = skipBlanks cs :=
  List.dropWhile_append_of_pos h

theorem skipBlanks_cons {c : Char} (h : isSeparator c = false) (cs : List Char) :
    skipBlanks (c :: cs) = c :: cs :=
  List.dropWhile_cons_of_neg (by simp [h])

/-- A new line and its indentation are blanks. -/
theorem isSeparator_of_mem_newLine {level : Nat} : ∀ c ∈ newLine level, isSeparator c = true := by
  intro c hc
  rcases List.mem_cons.mp hc with rfl | hc
  · decide
  · rw [List.eq_of_mem_replicate hc]
    decide

theorem skipBlanks_newLine (level : Nat) (cs : List Char) :
    skipBlanks (newLine level ++ cs) = skipBlanks cs :=
  skipBlanks_append isSeparator_of_mem_newLine cs

/-! ## Texts -/

/-- The four digits of a number below the space, the first two of which are zeros. -/
theorem fourDigits_of_lt {n : Nat} (h : n < 0x20) :
    fourDigits n = ['0', '0', (n / 16).digitChar, (n % 16).digitChar] := by
  have hall : ∀ k : Fin 0x20,
      fourDigits k = ['0', '0', (k.val / 16).digitChar, (k.val % 16).digitChar] := by decide
  exact hall ⟨n, h⟩

/-- The escape by digits of a character below the space. -/
theorem quotedFrom_fourDigits {n : Nat} (h : n < 0x20) (cs : List Char) :
    quotedFrom .escape ('u' :: (fourDigits n ++ cs)) =
      (quotedFrom .plain cs).map fun r => (Char.ofNat n :: r.1, r.2) := by
  have hzero : Text.hexValue '0' = some 0 := by rfl
  have hhigh : Text.hexValue (n / 16).digitChar = some (n / 16) :=
    (Text.hexValue_digitChar (by omega)).1
  have hlow : Text.hexValue (n % 16).digitChar = some (n % 16) :=
    (Text.hexValue_digitChar (by omega)).1
  have hvalue : 16 * (n / 16) + n % 16 = n := by omega
  -- a number below the space is no half of a surrogate pair
  have hfirst : isHighSurrogate n = false := by simp [isHighSurrogate]; omega
  have hsecond : isLowSurrogate n = false := by simp [isLowSurrogate]; omega
  simp only [fourDigits_of_lt h, List.cons_append, List.nil_append, quotedFrom, hzero, hhigh, hlow]
  simp [hvalue, hfirst, hsecond]

/-- A character of a text is read back from its printed form. -/
theorem quotedFrom_escapeChar (c : Char) (cs : List Char) :
    quotedFrom .plain (escapeChar c ++ cs) =
      (quotedFrom .plain cs).map fun r => (c :: r.1, r.2) := by
  have hescape (d : Char) (hu : d ≠ 'u') (h : simpleEscape d = some c) :
      quotedFrom .plain ('\\' :: d :: cs) =
        (quotedFrom .plain cs).map fun r => (c :: r.1, r.2) := by
    simp [quotedFrom, hu, h]
  unfold escapeChar
  split_ifs with hquote hslash hback hform hfeed hreturn htab hcontrol
  · exact hescape '"' (by decide) (by rw [hquote]; rfl)
  · exact hescape '\\' (by decide) (by rw [hslash]; rfl)
  · exact hescape 'b' (by decide) (by rw [hback]; rfl)
  · exact hescape 'f' (by decide) (by rw [hform]; rfl)
  · exact hescape 'n' (by decide) (by rw [hfeed]; rfl)
  · exact hescape 'r' (by decide) (by rw [hreturn]; rfl)
  · exact hescape 't' (by decide) (by rw [htab]; rfl)
  · have hdigits := quotedFrom_fourDigits hcontrol cs
    rw [Char.ofNat_toNat] at hdigits
    rw [List.cons_append, List.cons_append, ← hdigits]
    rfl
  · simp [quotedFrom, hquote, hslash, hcontrol]

/-- The printed characters of a text are read up to the closing quote. -/
theorem quotedFrom_flatMap (cs rest : List Char) :
    quotedFrom .plain (cs.flatMap escapeChar ++ '"' :: rest) = .ok (cs, rest) := by
  induction cs with
  | nil => rfl
  | cons c cs ih =>
      rw [List.flatMap_cons, List.append_assoc, quotedFrom_escapeChar, ih]
      rfl

/-- A printed text is read back after its opening quote. -/
theorem quoted_printed (s : String) (rest : List Char) :
    quoted (s.toList.flatMap escapeChar ++ '"' :: rest) = .ok (s, rest) := by
  rw [quoted, quotedFrom_flatMap, Except.map, String.ofList_toList]

/-! ## Numbers -/

/-- What may follow a printed value: nothing, a comma or a line feed. -/
inductive Follows : List Char → Prop
  | nothing : Follows []
  | comma (cs : List Char) : Follows (',' :: cs)
  | lineFeed (cs : List Char) : Follows ('\n' :: cs)

theorem follows_newLine (level : Nat) (cs : List Char) : Follows (newLine level ++ cs) :=
  .lineFeed _

/-- What may follow a number does not go on with it. -/
theorem Follows.continues {rest : List Char} (h : Follows rest) : continues rest = false := by
  cases h <;> rfl

/-- A row of digits ends before what may follow it. -/
theorem digitRun_append {ds rest : List Char} (hds : ∀ c ∈ ds, c.isDigit = true)
    (hrest : Follows rest) : digitRun (ds ++ rest) = (ds, rest) := by
  have hnone : digitRun rest = ([], rest) := by cases hrest <;> rfl
  rw [digitRun, List.span_eq_takeWhile_dropWhile] at hnone
  obtain ⟨htake, hdrop⟩ := Prod.mk.inj hnone
  rw [digitRun, List.span_eq_takeWhile_dropWhile, List.takeWhile_append_of_pos hds,
    List.dropWhile_append_of_pos hds, htake, hdrop, List.append_nil]

/-- More digits make no smaller number. -/
theorem le_ofDigitChars (n : Nat) (ds : List Char) : n ≤ Nat.ofDigitChars 10 ds n := by
  induction ds generalizing n with
  | nil => exact Nat.le_refl n
  | cons c ds ih =>
      rw [Nat.ofDigitChars_cons]
      exact Nat.le_trans (by omega) (ih _)

/-- All digits of a number within 64 bits are taken. -/
theorem absorb_of_le {n : Nat} {ds : List Char} (h : Nat.ofDigitChars 10 ds n ≤ maxWord) :
    absorb n ds = (Nat.ofDigitChars 10 ds n, []) := by
  induction ds generalizing n with
  | nil => rfl
  | cons c ds ih =>
      rw [Nat.ofDigitChars_cons] at h ⊢
      have hfits : ¬maxWord < 10 * n + digitValue c :=
        Nat.not_lt.mpr (Nat.le_trans (le_ofDigitChars _ ds) h)
      rw [absorb]
      simp only [hfits, if_false]
      exact ih h

/-- A digit is none of the other characters. -/
theorem ne_of_isDigit {c d : Char} (hc : c.isDigit = true) (hd : d.isDigit = false) : c ≠ d := by
  rintro rfl
  rw [hc] at hd
  cases hd

/-- A digit is no blank. -/
theorem isSeparator_of_isDigit {c : Char} (h : c.isDigit = true) : isSeparator c = false := by
  have hspace : c ≠ ' ' := ne_of_isDigit h (by decide)
  have hfeed : c ≠ '\n' := ne_of_isDigit h (by decide)
  have htab : c ≠ '\t' := ne_of_isDigit h (by decide)
  have hreturn : c ≠ '\r' := ne_of_isDigit h (by decide)
  simp [isSeparator, hspace, hfeed, htab, hreturn]

/-- Only zero is written with a zero in front. -/
theorem head?_toDigits_ne {n : Nat} (hn : 0 < n) : (Nat.toDigits 10 n).head? ≠ some '0' := by
  induction n using Nat.strongRecOn with
  | ind n ih =>
      by_cases hsmall : n < 10
      · rw [Nat.toDigits_of_lt_base hsmall]
        interval_cases n <;> decide
      · rw [Nat.toDigits_of_base_le (by decide) (by omega),
          List.head?_append_of_ne_nil _ Nat.toDigits_ne_nil]
        exact ih (n / 10) (by omega) (by omega)

/-- A number within 64 bits is read back from its digits, and so is its opposite from those after
the sign. -/
theorem number_toDigits (negative : Bool) {n : Nat} {rest : List Char} (hn : n ≤ maxWord)
    (hnegative : negative = true → 0 < n ∧ n ≤ 9223372036854775808) (hrest : Follows rest) :
    number negative (Nat.toDigits 10 n ++ rest) =
      .ok (.integer (if negative then -n else n), rest) := by
  have hdigits : ∀ c ∈ Nat.toDigits 10 n, c.isDigit = true := fun c =>
    Nat.isDigit_of_mem_toDigits (by decide) (by decide)
  have hrun := digitRun_append hdigits hrest
  have hvalue : absorb 0 (Nat.toDigits 10 n) = (n, []) := by
    have hdecimal : Nat.ofDigitChars 10 (Nat.toDigits 10 n) 0 = n := Nat.ofDigitChars_ten_toDigits
    rw [absorb_of_le (by rw [hdecimal]; exact hn), hdecimal]
  rcases Nat.eq_zero_or_pos n with rfl | hpos
  · -- a zero has no sign
    have hplain : negative = false := by
      cases negative with
      | false => rfl
      | true => exact absurd (hnegative rfl).1 (Nat.lt_irrefl 0)
    rw [hplain]
    cases hrest <;> rfl
  · cases hlist : Nat.toDigits 10 n with
    | nil => exact absurd hlist Nat.toDigits_ne_nil
    | cons c cs =>
        have hzero : c ≠ '0' := by
          have hhead := head?_toDigits_ne hpos
          rw [hlist] at hhead
          exact fun hc => hhead (congrArg some hc)
        rw [hlist] at hrun hvalue hdigits
        have hc : c.isDigit = true := hdigits c List.mem_cons_self
        rw [List.cons_append] at hrun
        rw [List.cons_append]
        unfold number
        simp only [hzero, hc, hrun, hvalue, hrest.continues, if_false, if_true]
        cases negative with
        | false => rfl
        | true => simp [(hnegative rfl).2]

/-- A negative number is printed with a hyphen and its digits. -/
theorem toList_toString_neg {n : Nat} (hn : 0 < n) :
    (toString (-(n : Int))).toList = '-' :: Nat.toDigits 10 n := by
  have hneg : ¬0 ≤ -(n : Int) := by omega
  rw [Int.toString_eq_repr, Int.repr_eq_if, if_neg hneg, Int.neg_neg, Int.toNat_natCast,
    Nat.repr_eq_ofList_toDigits]
  simp

/-- A natural number is printed with its digits. -/
theorem toList_toString_natCast (n : Nat) : (toString (n : Int)).toList = Nat.toDigits 10 n := by
  rw [Int.toString_eq_repr, Int.repr_eq_if, if_pos (Int.natCast_nonneg n), Int.toNat_natCast,
    Nat.repr_eq_ofList_toDigits, String.toList_ofList]

/-! ## Readers of values without parts -/

namespace Reader

variable {α β : Type}

/-- Whether a reader gives back a value from its printed form, behind any blanks and before what may
follow it. -/
structure Takes (r : Reader α) (chars : List Char) (a : α) : Prop where
  /-- The printed form opens with neither a blank nor the end of a list. -/
  opens : ∃ c cs, chars = c :: cs ∧ isSeparator c = false ∧ c ≠ ']'
  reads : ∀ blanks {rest : List Char}, (∀ c ∈ blanks, isSeparator c = true) → Follows rest →
    r (blanks ++ (chars ++ rest)) = .ok (a, rest)

/-- A value that is read behind blanks is read without them as well. -/
theorem Takes.reads_front {r : Reader α} {chars rest : List Char} {a : α} (h : Takes r chars a)
    (hrest : Follows rest) : r (chars ++ rest) = .ok (a, rest) :=
  h.reads [] (fun _ hc => absurd hc List.not_mem_nil) hrest

/-- A whole text is read when nothing but blanks follows the printed form. -/
theorem Takes.run {r : Reader α} {chars : List Char} {a : α} (h : Takes r chars a) {tail : String}
    (hfollows : Follows tail.toList) (hblank : skipBlanks tail.toList = []) :
    r.run (.ofList chars ++ tail) = .ok a := by
  rw [Reader.run, String.toList_append, String.toList_ofList, h.reads_front hfollows]
  simp only [Except.bind, hblank]

/-- A reader that looks at the first character behind the blanks. -/
theorem takes_peek {k : Char → List Char → Outcome α} {c : Char} {cs : List Char} {a : α}
    (hc : isSeparator c = false) (hend : c ≠ ']')
    (h : ∀ rest, Follows rest → k c (cs ++ rest) = .ok (a, rest)) : Takes (peek k) (c :: cs) a where
  opens := ⟨c, cs, rfl, hc, hend⟩
  reads := by
    intro blanks rest hblanks hrest
    rw [peek, skipBlanks_append hblanks, List.cons_append, skipBlanks_cons hc]
    exact h rest hrest

/-- What is made of a value is read where the value is. -/
theorem Takes.map {r : Reader α} {chars : List Char} {a : α} (h : Takes r chars a) (f : α → β) :
    Takes (r.map f) chars (f a) where
  opens := h.opens
  reads := by
    intro blanks rest hblanks hrest
    rw [Reader.map, h.reads blanks hblanks hrest]
    rfl

/-- A text is read back from its printed form. -/
theorem takes_text (s : String) : Takes text (printText s) s := by
  show Takes text ('"' :: (s.toList.flatMap escapeChar ++ ['"'])) s
  refine takes_peek (by decide) (by decide) fun rest _ => ?_
  rw [if_pos rfl, List.append_assoc]
  exact quoted_printed s rest

/-- A flag is read back from its printed form. -/
theorem takes_flag (level : Nat) (b : Bool) : Takes flag (Value.printAt level (.flag b)) b := by
  cases b with
  | false => exact takes_peek (by decide) (by decide) fun _ _ => rfl
  | true => exact takes_peek (by decide) (by decide) fun _ _ => rfl

/-- An integer of 64 bits is within the bounds of its reader. -/
theorem integerOf_toInt (n : Int64) (rest : List Char) :
    integerOf (.integer n.toInt) rest = .ok (n, rest) := by
  rw [integerOf, if_pos n.toInt_le, Int64.ofInt_toInt]

/-- Every integer of 64 bits is read back, the least one too. -/
theorem takes_integer (n : Int64) : Takes integer (printNumber (.integer n.toInt)) n := by
  have hleast : -9223372036854775808 ≤ n.toInt := n.le_toInt
  have hgreatest : n.toInt ≤ 9223372036854775807 := n.toInt_le
  have hback := integerOf_toInt n
  rw [printNumber]
  by_cases hsign : 0 ≤ n.toInt
  · obtain ⟨m, hm⟩ := Int.eq_ofNat_of_zero_le hsign
    rw [hm, toList_toString_natCast]
    cases hlist : Nat.toDigits 10 m with
    | nil => exact absurd hlist Nat.toDigits_ne_nil
    | cons c cs =>
        have hc : c.isDigit = true :=
          Nat.isDigit_of_mem_toDigits (by decide) (by decide) (hlist ▸ List.mem_cons_self)
        refine takes_peek (isSeparator_of_isDigit hc) (ne_of_isDigit hc (by decide))
          fun rest hrest => ?_
        have hword : m ≤ maxWord := by
          rw [maxWord]
          omega
        have hnumber := number_toDigits false hword (fun h => absurd h Bool.false_ne_true) hrest
        rw [hlist, List.cons_append] at hnumber
        rw [hm] at hback
        rw [if_neg (ne_of_isDigit hc (by decide)), if_pos hc, hnumber]
        exact hback rest
  · obtain ⟨m, hm⟩ := Int.eq_ofNat_of_zero_le (show 0 ≤ -n.toInt by omega)
    have hpos : 0 < m := by omega
    have hopposite : n.toInt = -(m : Int) := by omega
    rw [hopposite, toList_toString_neg hpos]
    refine takes_peek (by decide) (by decide) fun rest hrest => ?_
    have hword : m ≤ maxWord := by
      rw [maxWord]
      omega
    rw [hopposite] at hback
    rw [if_pos rfl, number_toDigits true hword (fun _ => ⟨hpos, by omega⟩) hrest]
    exact hback rest

/-- A value that is there is no `null`. -/
theorem Takes.optional {inner : Reader α} {chars : List Char} {a : α} (h : Takes inner chars a)
    (hnull : chars.head? ≠ some 'n') : Takes (Reader.optional inner) chars (some a) where
  opens := h.opens
  reads := by
    intro blanks rest hblanks hrest
    obtain ⟨c, cs, rfl, hc, -⟩ := h.opens
    have hinner := h.reads_front hrest
    rw [Reader.optional, skipBlanks_append hblanks, List.cons_append, skipBlanks_cons hc]
    split
    · next heq => exact absurd (congrArg List.head? heq) hnull
    · rw [List.cons_append] at hinner
      rw [hinner]
      rfl

end Reader

end DagScaffold.Json
