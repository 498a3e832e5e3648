import Mathlib.Data.Nat.Find
import Mathlib.Tactic.IntervalCases

/-!
# The proleptic Gregorian calendar

Dates and whole seconds since the start of 1970, for every year. The calendar repeats after
400 years of 146097 days; inside such a cycle the year of a day is the greatest one that has
begun by then, and likewise the month. `civil` and `epochDay` are inverse on valid dates
(`epochDay_civil`), which carries over to seconds (`seconds_moment`).
-/
namespace Calendar

/-- A year of 366 days. -/
def isLeap (year : Nat) : Bool := year % 4 = 0 && (year % 100 ≠ 0 || year % 400 = 0)

/-- The length of a year. -/
def yearLength (year : Nat) : Nat := if isLeap year then 366 else 365

/-- The days from the start of year zero to the start of a year. -/
def daysBeforeYear (year : Nat) : Nat :=
  365 * year + (year + 3) / 4 + (year + 399) / 400 - (year + 99) / 100

/-- The days of a common year before each of its months, and its length. -/
def commonMonths : List Nat := [0, 31, 59, 90, 120, 151, 181, 212, 243, 273, 304, 334, 365]

/-- The days of a year before a month counted from zero; for twelve, its length. -/
def daysBeforeMonth (leap : Bool) (month : Nat) : Nat :=
  commonMonths.getD month 0 + if leap && 2 ≤ month then 1 else 0

/-- The length of a month counted from zero. -/
def monthLength (leap : Bool) (month : Nat) : Nat :=
  daysBeforeMonth leap (month + 1) - daysBeforeMonth leap month

/-- The last year that has begun by a day counted from the start of year zero. -/
def yearOf (day : Nat) : Nat :=
  Nat.findGreatest (fun year => daysBeforeYear year ≤ day) (day / 365)

/-- The last month that has begun by a day of the year. -/
def monthOf (leap : Bool) (day : Nat) : Nat :=
  Nat.findGreatest (fun month => daysBeforeMonth leap month ≤ day) 11

/-- The days of a cycle of 400 years. -/
def cycle : Nat := 146097

/-- The days from the start of year zero to the start of 1970. -/
def epoch : Int := 719528

/-- A date. Months and days count from one. -/
structure Date where
  /-- The year. -/
  year : Int
  /-- The month. -/
  month : Nat
  /-- The day of the month. -/
  day : Nat
  deriving DecidableEq, Repr

/-- The year of a date within its cycle. -/
def Date.cycleYear (date : Date) : Nat := (date.year % 400).toNat

/-- The month and the day exist in the year. -/
def Date.Valid (date : Date) : Prop :=
  1 ≤ date.month ∧ date.month ≤ 12 ∧ 1 ≤ date.day ∧
    date.day ≤ monthLength (isLeap date.cycleYear) (date.month - 1)

instance (date : Date) : Decidable date.Valid := inferInstanceAs (Decidable (_ ∧ _))

/-- The days from the start of 1970 to a date. -/
def epochDay (date : Date) : Int :=
  date.year / 400 * cycle + daysBeforeYear date.cycleYear +
    daysBeforeMonth (isLeap date.cycleYear) (date.month - 1) + (date.day - 1 : Nat) - epoch

/-- The date of a day counted from the start of 1970. -/
def civil (day : Int) : Date :=
  let within := ((day + epoch) % cycle).toNat
  let year := yearOf within
  let rest := within - daysBeforeYear year
  let month := monthOf (isLeap year) rest
  { year := (day + epoch) / cycle * 400 + year
    month := month + 1
    day := rest - daysBeforeMonth (isLeap year) month + 1 }

/-! ## Years -/

/-- A division rounded up grows at the multiples of its divisor. -/
theorem ceil_succ (year divisor : Nat) (positive : 0 < divisor) :
    (year + 1 + (divisor - 1)) / divisor =
      (year + (divisor - 1)) / divisor + if year % divisor = 0 then 1 else 0 := by
  have shift : year + 1 + (divisor - 1) = year + (divisor - 1) + 1 := by omega
  rw [shift, Nat.succ_div]
  congr 2
  rw [Nat.dvd_iff_mod_eq_zero, show year + (divisor - 1) + 1 = year + divisor by omega,
    Nat.add_mod_right]

/-- A year begins one year length after the year before it. -/
theorem daysBeforeYear_succ (year : Nat) :
    daysBeforeYear (year + 1) = daysBeforeYear year + yearLength year := by
  have fourth := ceil_succ year 4 (by decide)
  have century := ceil_succ year 100 (by decide)
  have cycles := ceil_succ year 400 (by decide)
  have positive : (year + 99) / 100 ≤ 365 * year := by omega
  simp only [Nat.reduceSub] at fourth century cycles
  simp only [daysBeforeYear, fourth, century, cycles, yearLength, isLeap, Bool.and_eq_true,
    Bool.or_eq_true, decide_eq_true_eq]
  by_cases four : year % 4 = 0
  · by_cases hundred : year % 100 = 0
    · by_cases whole : year % 400 = 0 <;> simp [four, hundred, whole] <;> omega
    · have part : year % 400 ≠ 0 := by omega
      simp [four, hundred, part]
      omega
  · have apart : year % 100 ≠ 0 ∧ year % 400 ≠ 0 := by omega
    simp [four, apart]
    omega

/-- A year begins at least 365 days a year after the start of year zero. -/
theorem daysBeforeYear_ge (year : Nat) : 365 * year ≤ daysBeforeYear year := by
  unfold daysBeforeYear
  omega

/-- The year of a day has begun and has not ended. -/
theorem yearOf_spec (day : Nat) :
    daysBeforeYear (yearOf day) ≤ day ∧ day < daysBeforeYear (yearOf day + 1) := by
  constructor
  · exact Nat.findGreatest_spec (P := fun year => daysBeforeYear year ≤ day)
      (Nat.zero_le _) (Nat.zero_le day)
  · by_contra ended
    have begun : daysBeforeYear (yearOf day + 1) ≤ day := not_lt.mp ended
    have bound : yearOf day + 1 ≤ day / 365 := by
      have := daysBeforeYear_ge (yearOf day + 1)
      omega
    have := Nat.le_findGreatest (P := fun year => daysBeforeYear year ≤ day) bound begun
    exact absurd this (Nat.not_succ_le_self _)

/-- The day within its year. -/
theorem yearOf_rest (day : Nat) : day - daysBeforeYear (yearOf day) < yearLength (yearOf day) := by
  obtain ⟨begun, going⟩ := yearOf_spec day
  rw [daysBeforeYear_succ] at going
  omega

/-- The days of a cycle fall in its 400 years. -/
theorem yearOf_lt_cycle {day : Nat} (within : day < cycle) : yearOf day < 400 := by
  by_contra late
  have begun := (yearOf_spec day).1
  have : daysBeforeYear 400 ≤ daysBeforeYear (yearOf day) := by
    unfold daysBeforeYear
    omega
  have : daysBeforeYear 400 = cycle := by decide
  omega

/-! ## Months -/

/-- The month of a day has begun and has not ended. -/
theorem monthOf_spec (leap : Bool) {day : Nat} (within : day < daysBeforeMonth leap 12) :
    daysBeforeMonth leap (monthOf leap day) ≤ day ∧
      day < daysBeforeMonth leap (monthOf leap day + 1) ∧ monthOf leap day ≤ 11 := by
  have upper : monthOf leap day ≤ 11 := Nat.findGreatest_le 11
  refine ⟨?_, ?_, upper⟩
  · refine Nat.findGreatest_spec (P := fun month => daysBeforeMonth leap month ≤ day)
      (Nat.zero_le _) ?_
    cases leap <;> exact Nat.zero_le day
  · by_contra ended
    have begun : daysBeforeMonth leap (monthOf leap day + 1) ≤ day := not_lt.mp ended
    by_cases last : monthOf leap day = 11
    · rw [last] at begun
      exact absurd within (not_lt.mpr begun)
    · have := Nat.le_findGreatest (P := fun month => daysBeforeMonth leap month ≤ day)
        (show monthOf leap day + 1 ≤ 11 by omega) begun
      exact absurd this (Nat.not_succ_le_self _)

/-- The months of a year make up its length. -/
theorem daysBeforeMonth_twelve (year : Nat) :
    daysBeforeMonth (isLeap year) 12 = yearLength year := by
  unfold yearLength
  cases isLeap year <;> rfl

/-- A month has at most 31 days. -/
theorem monthLength_le (leap : Bool) (month : Nat) : monthLength leap month ≤ 31 := by
  by_cases last : month < 12
  · cases leap <;> interval_cases month <;> decide
  · have beyond : commonMonths.getD (month + 1) 0 = 0 := by
      rw [List.getD_eq_getElem?_getD, List.getElem?_eq_none (by simp [commonMonths]; omega)]
      rfl
    simp only [monthLength, daysBeforeMonth, beyond]
    split_ifs <;> omega

/-! ## Dates -/

/-- The year of a civil date within its cycle. -/
theorem civil_cycleYear (day : Int) :
    (civil day).cycleYear = yearOf ((day + epoch) % cycle).toNat := by
  have within : ((day + epoch) % cycle).toNat < cycle := by
    unfold cycle
    omega
  have small := yearOf_lt_cycle within
  simp only [Date.cycleYear, civil]
  omega

/-- The day within its cycle and year, and the month within the year. -/
theorem civil_parts (day : Int) :
    ∃ within year rest month, within = ((day + epoch) % cycle).toNat ∧ year = yearOf within ∧
      year < 400 ∧ within = daysBeforeYear year + rest ∧ month = monthOf (isLeap year) rest ∧
      month ≤ 11 ∧ daysBeforeMonth (isLeap year) month ≤ rest ∧
      rest < daysBeforeMonth (isLeap year) (month + 1) ∧
      civil day = { year := (day + epoch) / cycle * 400 + year, month := month + 1,
                    day := rest - daysBeforeMonth (isLeap year) month + 1 } := by
  have within : ((day + epoch) % cycle).toNat < cycle := by
    unfold cycle
    omega
  have rest := yearOf_rest ((day + epoch) % cycle).toNat
  rw [← daysBeforeMonth_twelve] at rest
  obtain ⟨begun, going, last⟩ := monthOf_spec _ rest
  have year := (yearOf_spec ((day + epoch) % cycle).toNat).1
  exact ⟨_, _, _, _, rfl, rfl, yearOf_lt_cycle within, (Nat.add_sub_of_le year).symm, rfl, last,
    begun, going, rfl⟩

/-- Every day has a date in the calendar. -/
theorem civil_valid (day : Int) : (civil day).Valid := by
  obtain ⟨within, year, rest, month, rfl, yearEq, -, -, -, last, begun, going, date⟩ :=
    civil_parts day
  have cycleYear := civil_cycleYear day
  rw [← yearEq] at cycleYear
  unfold Date.Valid
  rw [cycleYear, date]
  refine ⟨by simp, Nat.succ_le_succ last, by simp, ?_⟩
  simp only [Nat.add_sub_cancel, monthLength]
  omega

/-- The date of a day is that many days after the start of 1970. -/
theorem epochDay_civil (day : Int) : epochDay (civil day) = day := by
  obtain ⟨within, year, rest, month, withinEq, yearEq, small, split, -, -, begun, -, date⟩ :=
    civil_parts day
  have cycleYear := civil_cycleYear day
  rw [← withinEq, ← yearEq] at cycleYear
  unfold epochDay
  rw [cycleYear, date]
  simp only [Nat.add_sub_cancel]
  have cycles : ((day + epoch) / (cycle : Nat) * 400 + (year : Int)) / 400 =
      (day + epoch) / (cycle : Nat) := by omega
  rw [cycles]
  unfold cycle at *
  omega

/-- The months before a month are days of the year. -/
theorem daysBeforeMonth_le (year month : Nat) (small : month ≤ 12) :
    daysBeforeMonth (isLeap year) month ≤ yearLength year := by
  rw [← daysBeforeMonth_twelve]
  cases isLeap year <;> interval_cases month <;> decide

/-- A valid date of the first 10000 years falls in the first 25 cycles. -/
theorem epochDay_range {date : Date} (valid : date.Valid) (first : 0 ≤ date.year)
    (last : date.year ≤ 9999) : 0 ≤ epochDay date + epoch ∧
      epochDay date + epoch < (25 * cycle : Nat) := by
  obtain ⟨monthFirst, monthLast, dayFirst, dayLast⟩ := valid
  have small : date.cycleYear < 400 := by
    unfold Date.cycleYear
    omega
  have months := daysBeforeMonth_le date.cycleYear (date.month - 1 + 1) (by omega)
  have cycles : daysBeforeYear 400 = cycle := by decide
  have later : daysBeforeYear (date.cycleYear + 1) ≤ daysBeforeYear 400 := by
    unfold daysBeforeYear
    omega
  rw [daysBeforeYear_succ] at later
  unfold monthLength at dayLast
  unfold epochDay
  unfold cycle at *
  omega

/-- A day of the first 25 cycles has a year of four digits. -/
theorem civil_year_range {day : Int} (first : 0 ≤ day + epoch)
    (last : day + epoch < (25 * cycle : Nat)) :
    0 ≤ (civil day).year ∧ (civil day).year ≤ 9999 := by
  obtain ⟨within, year, rest, month, -, -, small, -, -, -, -, -, date⟩ := civil_parts day
  rw [date]
  unfold cycle at *
  constructor <;> (simp only []; omega)

/-! ## Seconds -/

/-- A date and a time of day in whole seconds. -/
structure Moment where
  /-- The date. -/
  date : Date
  /-- The hour. -/
  hour : Nat
  /-- The minute. -/
  minute : Nat
  /-- The second. -/
  second : Nat
  deriving DecidableEq, Repr

/-- The seconds from the start of 1970 to a moment. -/
def Moment.seconds (moment : Moment) : Int :=
  epochDay moment.date * 86400 + (moment.hour * 3600 + moment.minute * 60 + moment.second : Nat)

/-- The moment a number of seconds after the start of 1970. -/
def moment (seconds : Int) : Moment :=
  let within := (seconds % 86400).toNat
  { date := civil (seconds / 86400)
    hour := within / 3600
    minute := within / 60 % 60
    second := within % 60 }

/-- A moment is that many seconds after the start of 1970. -/
theorem seconds_moment (seconds : Int) : (moment seconds).seconds = seconds := by
  simp only [Moment.seconds, moment, epochDay_civil]
  omega

/-- The time of a moment is a time of day. -/
theorem moment_time (seconds : Int) : (moment seconds).hour < 24 ∧ (moment seconds).minute < 60 ∧
    (moment seconds).second < 60 := by
  simp only [moment]
  omega

end Calendar
