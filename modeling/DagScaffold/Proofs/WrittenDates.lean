import Mathlib
import DagScaffold.Calendar
import DagScaffold.Proofs.Naming
import DagScaffold.Proofs.TextLines

/-!
# Written dates

A date is written as a year, a month and a day with hyphens between them. The year has four digits
at most, or any number of them behind a sign; blanks may stand before each number. Reading finds
exactly the dates that are written so and exist.

* `Numeral`, `WritesYear`, `WritesDate` : texts that write a number, a year and a date;
* `InCalendar`, `isDay_iff` : the days that exist;
* `parse?_trim_eq_some_iff` : the dates that are read.
-/

namespace DagScaffold.Date

open DagScaffold.Text

/-! ## Days that exist -/

/-- The number of days of a month in a year. -/
inductive MonthLength (year : Int) : Nat → Nat → Prop
  | long {month : Nat} : month ∈ [1, 3, 5, 7, 8, 10, 12] → MonthLength year month 31
  | short {month : Nat} : month ∈ [4, 6, 9, 11] → MonthLength year month 30
  | leap : (4 ∣ year ∧ ¬100 ∣ year) ∨ 400 ∣ year → MonthLength year 2 29
  | common : ¬((4 ∣ year ∧ ¬100 ∣ year) ∨ 400 ∣ year) → MonthLength year 2 28

/-- Whether the calendar has a day. -/
def InCalendar (year : Int) (month day : Nat) : Prop :=
  ∃ length, MonthLength year month length ∧ 1 ≤ day ∧ day ≤ length

/-- A year is a leap year by the rule of the calendar. -/
theorem isLeapYear_iff (year : Int) :
    isLeapYear year = true ↔ (4 ∣ year ∧ ¬100 ∣ year) ∨ 400 ∣ year := by
  simp only [isLeapYear, Bool.and_eq_true, Bool.or_eq_true, beq_iff_eq, bne_iff_ne]
  omega

/-- A month has the number of days that the calendar gives it in its year. -/
theorem monthLength_iff (year : Int) (month length : Nat) :
    MonthLength year month length ↔ 1 ≤ month ∧ month ≤ 12 ∧ length = daysInMonth year month := by
  constructor
  · intro h
    cases h with
    | long hmonth =>
        simp only [List.mem_cons, List.not_mem_nil, or_false] at hmonth
        rcases hmonth with rfl | rfl | rfl | rfl | rfl | rfl | rfl <;>
          exact ⟨by decide, by decide, rfl⟩
    | short hmonth =>
        simp only [List.mem_cons, List.not_mem_nil, or_false] at hmonth
        rcases hmonth with rfl | rfl | rfl | rfl <;> exact ⟨by decide, by decide, rfl⟩
    | leap hleap => exact ⟨by decide, by decide, (if_pos ((isLeapYear_iff year).mpr hleap)).symm⟩
    | common hcommon =>
      exact ⟨by decide, by decide, (if_neg (mt (isLeapYear_iff year).mp hcommon)).symm⟩
  · rintro ⟨hone, htwelve, rfl⟩
    unfold daysInMonth
    split_ifs with hfebruary hleap hthirty
    · exact hfebruary ▸ .leap ((isLeapYear_iff year).mp hleap)
    · exact hfebruary ▸ .common (mt (isLeapYear_iff year).mpr hleap)
    · exact .short (by simpa using hthirty)
    · refine .long ?_
      simp only [List.mem_cons, List.not_mem_nil, or_false]
      omega

/-- A day is checked against the calendar. -/
theorem isDay_iff (year : Int) (month day : Nat) :
    isDay year month day = true ↔ InCalendar year month day := by
  simp only [isDay, InCalendar, monthLength_iff, Bool.and_eq_true, decide_eq_true_eq]
  constructor
  · rintro ⟨⟨⟨hone, htwelve⟩, hfirst⟩, hlast⟩
    exact ⟨_, ⟨hone, htwelve, rfl⟩, hfirst, hlast⟩
  · rintro ⟨-, ⟨hone, htwelve, rfl⟩, hfirst, hlast⟩
    exact ⟨⟨⟨hone, htwelve⟩, hfirst⟩, hlast⟩

/-- A date is made of a day of the calendar in a year within range. -/
theorem of?_eq_some_iff (year : Int) (month day : Nat) (d : Date) :
    of? year month day = some d ↔
      yearInRange d.year = true ∧ year = d.year ∧ month = d.month ∧ day = d.day := by
  obtain ⟨year', month', day', hexists⟩ := d
  unfold of?
  constructor
  · intro h
    split_ifs at h with hday hrange
    obtain ⟨rfl, rfl, rfl⟩ := Date.mk.inj (Option.some.inj h)
    exact ⟨hrange, rfl, rfl, rfl⟩
  · rintro ⟨hrange, rfl, rfl, rfl⟩
    rw [dif_pos hexists, if_pos hrange]

/-! ## Numbers -/

/-- Whether a text is a row of decimal digits that stands for the number. -/
def Numeral (text : String) (n : Nat) : Prop :=
  text ≠ "" ∧ (∀ c ∈ text.toList, c.isDigit = true) ∧
    Nat.ofDigits 10 (text.toList.reverse.map fun c => c.toNat - 48) = n

/-- The value of a row of digits, as the number that they write to the base ten. -/
theorem digitsValue_eq_ofDigits (cs : List Char) :
    digitsValue cs = Nat.ofDigits 10 (cs.reverse.map fun c => c.toNat - 48) := by
  induction cs using List.reverseRecOn with
  | nil => rfl
  | append_singleton cs c ih =>
      rw [digitsValue, List.foldl_append, ← digitsValue, ih, List.reverse_append, List.map_append]
      show 10 * _ + (c.toNat - 48) = Nat.ofDigits 10 ((c.toNat - 48) :: _)
      rw [Nat.ofDigits_cons, Nat.add_comm]
      rfl

/-- A digit is no blank. -/
theorem isBlank_of_isDigit {c : Char} (h : c.isDigit = true) : isBlank c = false := by
  refine Project.isBlank_eq_false_of_isNameChar ?_
  rw [Project.isNameChar, Char.isAlphanum, h, Bool.or_true, Bool.true_or, Bool.true_or]

/-- A number of a text's front is read up to its last digit. -/
theorem number?_append {width n : Nat} {text : String} (h : Numeral text n)
    (hwidth : text.length ≤ width) {rest : List Char} (hend : rest.head?.any Char.isDigit = false) :
    number? width (text.toList ++ rest) = some (n, rest) := by
  obtain ⟨hne, hdigits, rfl⟩ := h
  have hrest (k : Nat) : (rest.take k).takeWhile Char.isDigit = [] := by
    cases rest with
    | nil => rw [List.take_nil, List.takeWhile_nil]
    | cons c rest =>
        cases k with
        | zero => rfl
        | succ k => exact List.takeWhile_cons_of_neg (Bool.not_eq_true _ ▸ hend)
  have htake : ((text.toList ++ rest).take width).takeWhile Char.isDigit = text.toList := by
    rw [List.take_append, List.take_of_length_le (by rwa [String.length_toList]),
      List.takeWhile_append_of_pos hdigits, hrest, List.append_nil]
  have hempty : text.toList.isEmpty = false :=
    List.isEmpty_eq_false_iff.mpr (mt String.toList_eq_nil_iff.mp hne)
  rw [number?, htake, hempty, List.drop_left, digitsValue_eq_ofDigits]
  rfl

/-- A number that is read stands in front, with at most so many digits. -/
theorem exists_of_number? {width n : Nat} {cs rest : List Char}
    (h : number? width cs = some (n, rest)) :
    ∃ text : String, cs = text.toList ++ rest ∧ Numeral text n ∧ text.length ≤ width := by
  unfold number? at h
  dsimp only at h
  split_ifs at h with hempty
  obtain ⟨hn, hrest⟩ := Prod.mk.inj (Option.some.inj h)
  have hfront : (cs.take width).takeWhile Char.isDigit <+: cs :=
    (List.takeWhile_prefix _).trans (List.take_prefix _ _)
  refine ⟨.ofList ((cs.take width).takeWhile Char.isDigit), ?_, ⟨?_, ?_, ?_⟩, ?_⟩
  · rw [String.toList_ofList, ← hrest]
    exact (List.prefix_append_drop hfront)
  · rw [Ne, ← String.toList_eq_nil_iff, String.toList_ofList]
    simpa using hempty
  · rw [String.toList_ofList]
    exact fun c hc => List.mem_takeWhile_imp hc
  · rw [String.toList_ofList, ← hn, digitsValue_eq_ofDigits]
  · rw [String.length_ofList]
    exact ((List.takeWhile_prefix _).length_le).trans (List.length_take_le _ _)

/-- A digit opens a numeral, and a digit ends it. -/
theorem Numeral.ends {text : String} {n : Nat} (h : Numeral text n) :
    text.toList.head?.any isBlank = false ∧ text.toList.getLast?.any isBlank = false := by
  obtain ⟨hne, hdigits, -⟩ := h
  have hchars : text.toList ≠ [] := mt String.toList_eq_nil_iff.mp hne
  rw [List.head?_eq_some_head hchars, List.getLast?_eq_some_getLast hchars]
  exact ⟨isBlank_of_isDigit (hdigits _ (List.head_mem hchars)),
    isBlank_of_isDigit (hdigits _ (List.getLast_mem hchars))⟩

/-! ## Years -/

/-- The texts that write a year. -/
inductive WritesYear : String → Int → Prop
  | plain {digits : String} {n : Nat} : Numeral digits n → digits.length ≤ 4 → WritesYear digits n
  | after {digits : String} {n : Nat} : Numeral digits n → WritesYear ("+" ++ digits) n
  | before {digits : String} {n : Nat} : Numeral digits n → WritesYear ("-" ++ digits) (-n)

/-- A year starts with a digit or with a sign, never with a blank. -/
theorem WritesYear.head? {text : String} {year : Int} (h : WritesYear text year) :
    ∃ c cs, text.toList = c :: cs ∧ isBlank c = false := by
  cases h with
  | plain hdigits _ =>
      obtain ⟨hopen, -⟩ := hdigits.ends
      obtain ⟨hne, -, -⟩ := hdigits
      cases hchars : text.toList with
      | nil => exact absurd (String.toList_eq_nil_iff.mp hchars) hne
      | cons c cs =>
          rw [hchars] at hopen
          exact ⟨c, cs, rfl, hopen⟩
  | after _ => exact ⟨'+', _, String.toList_append, by decide⟩
  | before _ => exact ⟨'-', _, String.toList_append, by decide⟩

/-- A year is read back where no digit follows. -/
theorem year?_append {text : String} {year : Int} (h : WritesYear text year) {rest : List Char}
    (hend : rest.head?.any Char.isDigit = false) :
    year? (text.toList ++ rest) = some (year, rest) := by
  cases h with
  | plain hdigits hwidth =>
      have hread := number?_append hdigits hwidth hend
      obtain ⟨hne, hall, -⟩ := hdigits
      cases hchars : text.toList with
      | nil => exact absurd (String.toList_eq_nil_iff.mp hchars) hne
      | cons c cs =>
          have hdigit : c.isDigit = true := hall c (hchars ▸ List.mem_cons_self)
          rw [hchars, List.cons_append] at hread
          rw [List.cons_append, year?, hread]
          · rfl
          · rintro r ⟨⟩
            cases hdigit
          · rintro r ⟨⟩
            cases hdigit
  | @after digits n hdigits =>
      rw [String.toList_append]
      show ((number? (digits.toList ++ rest).length (digits.toList ++ rest)).map _) = _
      rw [number?_append hdigits (by rw [List.length_append, String.length_toList]; omega) hend]
      rfl
  | @before digits n hdigits =>
      rw [String.toList_append]
      show ((number? (digits.toList ++ rest).length (digits.toList ++ rest)).map _) = _
      rw [number?_append hdigits (by rw [List.length_append, String.length_toList]; omega) hend]
      rfl

/-- A year that is read stands in front. -/
theorem exists_of_year? {cs rest : List Char} {year : Int} (h : year? cs = some (year, rest)) :
    ∃ text : String, cs = text.toList ++ rest ∧ WritesYear text year := by
  unfold year? at h
  split at h
  all_goals
    obtain ⟨⟨n, rest'⟩, hread, hout⟩ := Option.map_eq_some_iff.mp h
    obtain ⟨rfl, rfl⟩ := Prod.mk.inj hout
    obtain ⟨digits, rfl, hdigits, hwidth⟩ := exists_of_number? hread
  · exact ⟨"-" ++ digits, by rw [String.toList_append]; rfl, .before hdigits⟩
  · exact ⟨"+" ++ digits, by rw [String.toList_append]; rfl, .after hdigits⟩
  · exact ⟨digits, rfl, .plain hdigits hwidth⟩

/-! ## Dates -/

/-- A hyphen is read together with the blanks behind it. -/
theorem hyphen?_eq_some_iff (cs rest : List Char) :
    hyphen? cs = some rest ↔
      ∃ blanks, cs = '-' :: (blanks ++ rest) ∧ blanks.all isBlank = true ∧
        rest.head?.any isBlank = false := by
  constructor
  · intro h
    unfold hyphen? at h
    split at h
    · obtain ⟨blanks, hsplit, hends⟩ := (dropWhile_isBlank_eq_iff _ _).mp (Option.some.inj h)
      exact ⟨blanks, by rw [hsplit], hends⟩
    · cases h
  · rintro ⟨blanks, rfl, hends⟩
    exact congrArg some ((dropWhile_isBlank_eq_iff _ _).mpr ⟨blanks, rfl, hends⟩)

/-- A hyphen and blanks are read before a number. -/
theorem hyphen?_append {blanks text : String} {n : Nat} (hblanks : isBlankText blanks = true)
    (h : Numeral text n) (rest : List Char) :
    hyphen? ('-' :: (blanks.toList ++ (text.toList ++ rest))) = some (text.toList ++ rest) := by
  refine (hyphen?_eq_some_iff _ _).mpr ⟨blanks.toList, rfl, hblanks, ?_⟩
  obtain ⟨hopen, -⟩ := h.ends
  obtain ⟨hne, -, -⟩ := h
  rwa [List.head?_append_of_ne_nil _ (mt String.toList_eq_nil_iff.mp hne)]

/-- Whether a text is a date, with no blank before the year and none behind the day. -/
def BareDate (text : String) (year : Int) (month day : Nat) : Prop :=
  ∃ y front m back d, text = y ++ "-" ++ front ++ m ++ "-" ++ back ++ d ∧
    isBlankText front = true ∧ isBlankText back = true ∧ WritesYear y year ∧
    (Numeral m month ∧ m.length ≤ 2) ∧ Numeral d day ∧ d.length ≤ 2

/-- Whether a text is a date with blanks around it. -/
def WritesDate (value : String) (year : Int) (month day : Nat) : Prop :=
  ∃ front text back, value = front ++ text ++ back ∧ isBlankText front = true ∧
    isBlankText back = true ∧ BareDate text year month day

/-- The year, the month and the day of a date, whether there is such a day or not. -/
def fields? (s : String) : Option (Int × Nat × Nat) :=
  (year? (s.toList.dropWhile isBlank)).bind fun y => (hyphen? y.2).bind fun r =>
    (number? 2 r).bind fun m => (hyphen? m.2).bind fun r =>
      (number? 2 r).bind fun d => if d.2.isEmpty then some (y.1, m.1, d.1) else none

/-- A date is parsed when its three fields are read and make one. -/
theorem parse?_eq_bind (s : String) : parse? s = (fields? s).bind fun f => of? f.1 f.2.1 f.2.2 := by
  simp only [parse?, fields?, Option.bind_eq_bind, Option.bind_assoc]
  refine Option.bind_congr fun y _ => Option.bind_congr fun r _ => Option.bind_congr fun m _ =>
    Option.bind_congr fun r' _ => Option.bind_congr fun d _ => ?_
  split <;> rfl

/-- The fields of a date are read from blanks and the bare date. -/
theorem fields?_eq_some_iff (s : String) (year : Int) (month day : Nat) :
    fields? s = some (year, month, day) ↔
      ∃ front text, s = front ++ text ∧ isBlankText front = true ∧
        BareDate text year month day := by
  simp only [fields?, Option.bind_eq_some_iff]
  constructor
  · rintro ⟨⟨y, r₁⟩, hy, r₂, hr₂, ⟨m, r₃⟩, hm, r₄, hr₄, ⟨d, r₅⟩, hd, hout⟩
    split_ifs at hout with hrest
    obtain ⟨rfl, hfields⟩ := Prod.mk.inj (Option.some.inj hout)
    obtain ⟨rfl, rfl⟩ := Prod.mk.inj hfields
    obtain rfl : r₅ = [] := List.isEmpty_iff.mp hrest
    obtain ⟨ytext, hytext, hyear⟩ := exists_of_year? hy
    obtain ⟨back₁, rfl, hback₁, -⟩ := (hyphen?_eq_some_iff _ _).mp hr₂
    obtain ⟨mtext, rfl, hmonth⟩ := exists_of_number? hm
    obtain ⟨back₂, rfl, hback₂, -⟩ := (hyphen?_eq_some_iff _ _).mp hr₄
    obtain ⟨dtext, rfl, hday⟩ := exists_of_number? hd
    obtain ⟨front, hsplit, hfront, -⟩ := (dropWhile_isBlank_eq_iff _ _).mp hytext
    refine ⟨.ofList front, _, ?_, ?_, ytext, .ofList back₁, mtext, .ofList back₂, dtext, rfl, ?_,
      ?_, hyear, hmonth, hday⟩
    · rw [← String.toList_inj, hsplit]
      simp
    all_goals rwa [isBlankText, String.toList_ofList]
  · rintro ⟨front, text, rfl, hfront, y, back₁, m, back₂, d, rfl, hback₁, hback₂, hyear, hmonth,
      hday⟩
    have hchars : (front ++ (y ++ "-" ++ back₁ ++ m ++ "-" ++ back₂ ++ d)).toList =
        front.toList ++ (y.toList ++ ('-' :: (back₁.toList ++ (m.toList ++ ('-' :: (back₂.toList ++
          (d.toList ++ []))))))) := by
      simp
    obtain ⟨c, cs, hy, hc⟩ := hyear.head?
    have hopen : (y.toList ++ ('-' :: (back₁.toList ++ (m.toList ++ ('-' :: (back₂.toList ++
        (d.toList ++ []))))))).head?.any isBlank = false := by
      rw [hy]
      exact hc
    refine ⟨(year, _), ?_, _, hyphen?_append hback₁ hmonth.1 _, _,
      number?_append hmonth.1 hmonth.2 rfl, _, hyphen?_append hback₂ hday.1 _, (day, []),
      number?_append hday.1 hday.2 rfl, rfl⟩
    rw [hchars, (dropWhile_isBlank_eq_iff _ _).mpr ⟨_, rfl, hfront, hopen⟩]
    exact year?_append hyear rfl

/-- A date has no blank at its ends, so it is what trimming leaves of it. -/
theorem BareDate.ends {text : String} {year : Int} {month day : Nat}
    (h : BareDate text year month day) :
    text.toList.head?.any isBlank = false ∧ text.toList.getLast?.any isBlank = false := by
  obtain ⟨y, front, m, back, d, rfl, -, -, hyear, -, hday, -⟩ := h
  obtain ⟨c, cs, hy, hc⟩ := hyear.head?
  obtain ⟨hne, -, -⟩ := id hday
  constructor
  · simp only [String.toList_append, hy, List.cons_append, List.head?_cons]
    exact hc
  · rw [String.toList_append, List.getLast?_append_of_ne_nil _ (mt String.toList_eq_nil_iff.mp hne)]
    exact hday.ends.2

/-- The fields that are read of a value without the blanks at its ends. -/
theorem fields?_trim_eq_some_iff (value : String) (year : Int) (month day : Nat) :
    fields? (trim value) = some (year, month, day) ↔ WritesDate value year month day := by
  constructor
  · intro h
    obtain ⟨front, text, hsplit, hfront, hdate⟩ := (fields?_eq_some_iff _ _ _ _).mp h
    obtain ⟨before, after, hvalue, hbefore, hafter, -⟩ := (trim_eq_iff value _).mp hsplit
    refine ⟨before ++ front, text, after, ?_, ?_, hafter, hdate⟩
    · rw [hvalue]
      simp only [String.append_assoc]
    · rw [isBlankText_append, hbefore, hfront]
      rfl
  · rintro ⟨front, text, back, rfl, hfront, hback, hdate⟩
    rw [(trim_eq_iff _ text).mpr ⟨front, back, rfl, hfront, hback, hdate.ends⟩]
    exact (fields?_eq_some_iff _ _ _ _).mpr ⟨"", text, String.empty_append.symm, rfl, hdate⟩

/-- The dates that are read of a value: the written ones that exist, in the years that a date may
have. -/
theorem parse?_trim_eq_some_iff (value : String) (d : Date) :
    parse? (trim value) = some d ↔
      yearInRange d.year = true ∧ WritesDate value d.year d.month d.day := by
  rw [parse?_eq_bind, Option.bind_eq_some_iff]
  constructor
  · rintro ⟨⟨year, month, day⟩, hfields, hof⟩
    obtain ⟨hrange, rfl, rfl, rfl⟩ := (of?_eq_some_iff _ _ _ _).mp hof
    exact ⟨hrange, (fields?_trim_eq_some_iff _ _ _ _).mp hfields⟩
  · rintro ⟨hrange, hwrites⟩
    exact ⟨_, (fields?_trim_eq_some_iff _ _ _ _).mpr hwrites,
      (of?_eq_some_iff _ _ _ _).mpr ⟨hrange, rfl, rfl, rfl⟩⟩

/-- A text writes one date at most. -/
theorem WritesDate.unique {value : String} {year year' : Int} {month month' day day' : Nat}
    (h : WritesDate value year month day) (h' : WritesDate value year' month' day') :
    year = year' ∧ month = month' ∧ day = day' := by
  rw [← fields?_trim_eq_some_iff] at h h'
  obtain ⟨hyear, hfields⟩ := Prod.mk.inj (Option.some.inj (h.symm.trans h'))
  exact ⟨hyear, Prod.mk.inj hfields⟩

end DagScaffold.Date
