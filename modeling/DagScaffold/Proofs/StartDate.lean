import Mathlib
import DagScaffold.Proofs.Rendering
import DagScaffold.Proofs.Variables
import DagScaffold.Proofs.WrittenDates

/-!
# The start date of a DAG

The settings take their start date from a variable of the environment, and the DAG file hands it to
a call that makes a day of it. The call knows the years from 1 to 9999 only, whereas settings have a
longer calendar.

* `MakesDay` : the calls that make a day;
* `makesDay_startDate_of_ofEnvironment` : the environments whose start date can be made in a DAG
  file.
-/

namespace DagScaffold.Dag

open DagScaffold.Date (InCalendar WritesDate)

/-- Whether a call of the generated language makes a day. It does for a day of the calendar in one
of the years from 1 to 9999, and fails for every other one. -/
def MakesDay (call : String) : Prop :=
  ∃ (year : Int) (month day : Nat),
    call = "datetime(" ++ toString year ++ ", " ++ toString month ++ ", " ++ toString day ++ ")" ∧
      1 ≤ year ∧ year ≤ 9999 ∧ InCalendar year month day

/-- The call of a date makes a day in the years from 1 to 9999. -/
theorem makesDay_dateCall_iff (d : Date) :
    MakesDay (Statement.dateCall d) ↔ 1 ≤ d.year ∧ d.year ≤ 9999 := by
  constructor
  · rintro ⟨year, month, day, hcall, hfirst, hlast, hday⟩
    have hd : d = ⟨year, month, day, (Date.isDay_iff _ _ _).mpr hday⟩ := dateCall_inj hcall
    rw [hd]
    exact ⟨hfirst, hlast⟩
  · rintro ⟨hfirst, hlast⟩
    exact ⟨d.year, d.month, d.day, rfl, hfirst, hlast, (Date.isDay_iff _ _ _).mp d.exists_day⟩

/-- The date that a variable of the environment is read as is the one that it writes. -/
theorem dateValue_eq_ok_iff (v : Settings.Variable) (value : String) (d : Date) :
    Settings.dateValue v value = .ok d ↔
      Date.yearInRange d.year = true ∧ WritesDate value d.year d.month d.day := by
  rw [← Date.parse?_trim_eq_some_iff, Settings.dateValue]
  cases Date.parse? (Text.trim value) with
  | none => simp
  | some d' => simp

/-- The line of a DAG file that sets the start date. -/
theorem startDate_line_mem (settings : Settings) (c : Config) :
    "    'start_date': " ++ Statement.dateCall settings.startDate ++ "," ∈
      linesFrom "" (statements settings c) := by
  have hmem : .defaultArgs c.owner settings.startDate ∈ preamble settings c :=
    List.mem_append_right _ (by simp [header, Statement.kind])
  have hfront : "    'start_date': " = "" ++ (indentation ++ "'start_date': ") := by decide
  rw [statements_eq_append, linesFrom_append fun s hs => (kind_of_mem_preamble s hs).1]
  refine List.mem_append_left _ (List.mem_flatMap.mpr ⟨_, hmem, List.mem_map.mpr
    ⟨indentation ++ "'start_date': " ++ Statement.dateCall settings.startDate ++ ",", ?_, ?_⟩⟩)
  · simp [Statement.bareLines]
  · simp only [hfront, String.append_assoc]

/-- The start date of settings that are read from an environment is the date that its variable
writes, and a day of the calendar. The DAG files of these settings make that day exactly when the
year that the variable writes is one from 1 to 9999. -/
theorem makesDay_startDate_of_ofEnvironment {env : String → Option String} {s : Settings}
    (h : Settings.ofEnvironment env = .ok s) :
    (∀ c : Config, "    'start_date': " ++ Statement.dateCall s.startDate ++ "," ∈
      linesFrom "" (statements s c)) ∧
    InCalendar s.startDate.year s.startDate.month s.startDate.day ∧
    (∀ value, env "DAG_FORGE_START_DATE" = some value →
      WritesDate value s.startDate.year s.startDate.month s.startDate.day) ∧
    (MakesDay (Statement.dateCall s.startDate) ↔
      ∀ value year month day, env "DAG_FORGE_START_DATE" = some value →
        WritesDate value year month day → 1 ≤ year ∧ year ≤ 9999) := by
  have hgiven := ((Settings.ofEnvironment_eq_ok_iff env s).mp h).startDate
  have hwrites (value : String) (hvalue : env "DAG_FORGE_START_DATE" = some value) :
      WritesDate value s.startDate.year s.startDate.month s.startDate.day := by
    rw [hvalue] at hgiven
    exact ((dateValue_eq_ok_iff _ _ _).mp hgiven).2
  refine ⟨startDate_line_mem s, (Date.isDay_iff _ _ _).mp s.startDate.exists_day, hwrites, ?_⟩
  rw [makesDay_dateCall_iff]
  constructor
  · intro hyear value year month day hvalue hdate
    obtain ⟨rfl, -, -⟩ := hdate.unique (hwrites value hvalue)
    exact hyear
  · intro hall
    cases hvalue : env "DAG_FORGE_START_DATE" with
    | none =>
        rw [hvalue] at hgiven
        have hdefault : s.startDate = defaultStartDate := hgiven
        rw [hdefault]
        decide
    | some value => exact hall value _ _ _ hvalue (hwrites value hvalue)

/-- An environment that sets the start date only. -/
def startingOn (value key : String) : Option String :=
  if key = "DAG_FORGE_START_DATE" then some value else none

/-- A leap day with a blank in front is a start date. -/
theorem makesDay_startDate_leapDay :
    MakesDay (Statement.dateCall ⟨2024, 2, 29, by decide⟩) ∧
      Settings.ofEnvironment (startingOn " 2024-2-29") =
        .ok { startDate := ⟨2024, 2, 29, by decide⟩ } := by
  have hread : Settings.ofEnvironment (startingOn " 2024-2-29") =
      .ok { startDate := ⟨2024, 2, 29, by decide⟩ } := by rfl
  refine ⟨(makesDay_startDate_of_ofEnvironment hread).2.2.2.mpr ?_, hread⟩
  intro value year month day hvalue hdate
  obtain ⟨rfl, -, -⟩ := hdate.unique
    ((makesDay_startDate_of_ofEnvironment hread).2.2.1 value hvalue)
  decide

/-- Settings may start in a year with five digits, which no call makes a day of. -/
theorem not_forall_makesDay_startDate :
    ¬∀ (env : String → Option String) (s : Settings), Settings.ofEnvironment env = .ok s →
      MakesDay (Statement.dateCall s.startDate) := by
  intro h
  have hmade := h (startingOn "+12345-06-07") { startDate := ⟨12345, 6, 7, by decide⟩ } rfl
  have hyear := (makesDay_dateCall_iff _).mp hmade
  exact absurd hyear.2 (by decide)

end DagScaffold.Dag
