import DagScaffold.Text.Blank

/-!
# Dates and times

Days of the Gregorian calendar, carried on to all years, and their written form: the year, the month
and the day with hyphens between them.

* `Date` : a day that exists;
* `Date.parse?` : reading the written form;
* `Date.text` : writing it, with four digits for the year and a sign outside `0` to `9999`;
* `Instant` : a point in time.
-/

namespace DagScaffold

/-! ## Days that exist -/

/-- Whether the year has a leap day. -/
def isLeapYear (year : Int) : Bool :=
  year % 4 == 0 && (year % 100 != 0 || year % 400 == 0)

/-- The number of days of a month. -/
def daysInMonth (year : Int) (month : Nat) : Nat :=
  if month = 2 then (if isLeapYear year then 29 else 28)
  else if month = 4 ∨ month = 6 ∨ month = 9 ∨ month = 11 then 30
  else 31

/-- Whether there is such a day. -/
def isDay (year : Int) (month day : Nat) : Bool :=
  1 ≤ month && month ≤ 12 && 1 ≤ day && day ≤ daysInMonth year month

/-- A day of the calendar. -/
structure Date where
  year : Int
  month : Nat
  day : Nat
  exists_day : isDay year month day = true := by decide
  deriving DecidableEq, Repr

namespace Date

/-- The years that a date may have. -/
def yearInRange (year : Int) : Bool :=
  -262143 ≤ year && year ≤ 262142

/-- The day of a year, a month and a day of the month, if there is one. -/
def of? (year : Int) (month day : Nat) : Option Date :=
  if h : isDay year month day = true then
    if yearInRange year then some ⟨year, month, day, h⟩ else none
  else none

/-! ## Reading -/

/-- The value of a row of decimal digits. -/
def digitsValue (ds : List Char) : Nat :=
  ds.foldl (fun n c => 10 * n + (c.toNat - '0'.toNat)) 0

/-- Reads a number of at least one and at most `width` digits from the front of a text. -/
def number? (width : Nat) (cs : List Char) : Option (Nat × List Char) :=
  let ds := (cs.take width).takeWhile Char.isDigit
  if ds.isEmpty then none else some (digitsValue ds, cs.drop ds.length)

/-- Reads a year from the front of a text: up to four digits, or any number of them after a sign. -/
def year? (cs : List Char) : Option (Int × List Char) :=
  match cs with
  | '-' :: r => (number? r.length r).map fun out => (-(out.1 : Int), out.2)
  | '+' :: r => (number? r.length r).map fun out => ((out.1 : Int), out.2)
  | r => (number? 4 r).map fun out => ((out.1 : Int), out.2)

/-- The text after a hyphen and the blanks behind it. -/
def hyphen? : List Char → Option (List Char)
  | '-' :: r => some (r.dropWhile Text.isBlank)
  | _ => none

/-- Reads a date. Blanks may stand before each of its numbers. -/
def parse? (s : String) : Option Date := do
  let (year, rest) ← year? (s.toList.dropWhile Text.isBlank)
  let (month, rest) ← number? 2 (← hyphen? rest)
  let (day, rest) ← number? 2 (← hyphen? rest)
  if rest.isEmpty then of? year month day else none

/-! ## Writing -/

/-- The decimal digits of a number with zeros before them up to the given width. -/
def padded (width n : Nat) : String :=
  let ds := Nat.toDigits 10 n
  .ofList (List.replicate (width - ds.length) '0' ++ ds)

/-- The written form of a year. -/
def yearText (year : Int) : String :=
  if 0 ≤ year ∧ year ≤ 9999 then padded 4 year.natAbs
  else (if year < 0 then "-" else "+") ++ padded 4 year.natAbs

/-- The written form of a date. -/
def text (d : Date) : String :=
  yearText d.year ++ "-" ++ padded 2 d.month ++ "-" ++ padded 2 d.day

end Date

/-! ## Instants -/

/-- A point in time: the seconds since the start of 1970 in the time of Greenwich, and the
nanoseconds after them. -/
structure Instant where
  seconds : Nat
  nanoseconds : Nat
  deriving DecidableEq, Repr

namespace Instant

/-- The year, the month and the day that is `days` days after the first of March of the year 0. The
years of this count begin in March, so a leap day comes last. -/
def civilDay (days : Nat) : Nat × Nat × Nat :=
  let era := days / 146097
  let dayOfEra := days % 146097
  let yearOfEra := (dayOfEra - dayOfEra / 1460 + dayOfEra / 36524 - dayOfEra / 146096) / 365
  let dayOfYear := dayOfEra - (365 * yearOfEra + yearOfEra / 4 - yearOfEra / 100)
  let shifted := (5 * dayOfYear + 2) / 153
  let day := dayOfYear - (153 * shifted + 2) / 5 + 1
  let month := if shifted < 10 then shifted + 3 else shifted - 9
  let year := yearOfEra + era * 400 + if month ≤ 2 then 1 else 0
  (year, month, day)

/-- The number of days from the first of March of the year 0 to the start of 1970. -/
def daysBefore1970 : Nat := 719468

/-- The fraction of a second in groups of three digits, without groups of zeros at its end. -/
def fractionText (nanoseconds : Nat) : String :=
  if nanoseconds = 0 then ""
  else if nanoseconds % 1000000 = 0 then "." ++ Date.padded 3 (nanoseconds / 1000000)
  else if nanoseconds % 1000 = 0 then "." ++ Date.padded 6 (nanoseconds / 1000)
  else "." ++ Date.padded 9 nanoseconds

/-- The written form of an instant: the day, the time of day and the mark of Greenwich. -/
def text (i : Instant) : String :=
  let (year, month, day) := civilDay (i.seconds / 86400 + daysBefore1970)
  let second := i.seconds % 86400
  Date.yearText year ++ "-" ++ Date.padded 2 month ++ "-" ++ Date.padded 2 day ++ "T" ++
    Date.padded 2 (second / 3600) ++ ":" ++ Date.padded 2 (second / 60 % 60) ++ ":" ++
    Date.padded 2 (second % 60) ++ fractionText i.nanoseconds ++ "Z"

end Instant

end DagScaffold
