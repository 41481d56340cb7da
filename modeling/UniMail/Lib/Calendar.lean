import Mathlib.Data.Nat.Find
import Mathlib.Tactic.IntervalCases

/-!
# The Gregorian calendar

Days are numbered from 0000-01-01. `civil` finds the date of a day: the last year and the last month
that have begun by then. Dates come in the order of their days (`civil_lt`), and `dayOf` numbers the
day of a date (`dayOf_civil`).
-/

namespace Calendar

/-- Days before the first of January of a year. -/
def daysBeforeYear (y : ℕ) : ℕ := 365 * y + (y + 3) / 4 - (y + 99) / 100 + (y + 399) / 400

def isLeap (y : ℕ) : Bool := y % 4 = 0 ∧ (y % 100 ≠ 0 ∨ y % 400 = 0)

/-- Days of the year before the first of a month; January is month 0. -/
def daysBeforeMonth (y m : ℕ) : ℕ :=
  ([0, 31, 59, 90, 120, 151, 181, 212, 243, 273, 304, 334].getD m 365) +
    if isLeap y ∧ 2 ≤ m then 1 else 0

/-- A date, its month and day counted from 1. -/
structure Date where
  year : ℕ
  month : ℕ
  day : ℕ
  deriving DecidableEq, Repr

def yearOf (n : ℕ) : ℕ := Nat.findGreatest (fun y => daysBeforeYear y ≤ n) (n / 365)

/-- The day of the year, from 0. -/
def yearDay (n : ℕ) : ℕ := n - daysBeforeYear (yearOf n)

/-- The month, from 0. -/
def monthOf (n : ℕ) : ℕ :=
  Nat.findGreatest (fun m => daysBeforeMonth (yearOf n) m ≤ yearDay n) 11

/-- The date of a day. -/
def civil (n : ℕ) : Date where
  year := yearOf n
  month := monthOf n + 1
  day := yearDay n - daysBeforeMonth (yearOf n) (monthOf n) + 1

/-- The day of a date. -/
def dayOf (d : Date) : ℕ := daysBeforeYear d.year + daysBeforeMonth d.year (d.month - 1) + (d.day - 1)

example : civil 719528 = ⟨1970, 1, 1⟩ := by decide +kernel

example : civil 730544 = ⟨2000, 2, 29⟩ := by decide +kernel

/-! ### Years -/

theorem daysBeforeYear_succ (y : ℕ) :
    daysBeforeYear (y + 1) = daysBeforeYear y + 365 + if isLeap y then 1 else 0 := by
  have h4 : (y + 1 + 3) / 4 = (y + 3) / 4 + if y % 4 = 0 then 1 else 0 := by split <;> omega
  have h100 : (y + 1 + 99) / 100 = (y + 99) / 100 + if y % 100 = 0 then 1 else 0 := by
    split <;> omega
  have h400 : (y + 1 + 399) / 400 = (y + 399) / 400 + if y % 400 = 0 then 1 else 0 := by
    split <;> omega
  have hfew : (y + 99) / 100 ≤ 365 * y := by omega
  simp only [daysBeforeYear, isLeap, decide_eq_true_eq, h4, h100, h400]
  -- A multiple of 400 is one of 100, and that is one of 4.
  have h100' : y % 400 = 0 → y % 100 = 0 := by omega
  have h4' : y % 100 = 0 → y % 4 = 0 := by omega
  generalize (y + 3) / 4 = a at *
  generalize (y + 99) / 100 = b at *
  generalize (y + 399) / 400 = c at *
  by_cases hy4 : y % 4 = 0 <;> by_cases hy100 : y % 100 = 0 <;> by_cases hy400 : y % 400 = 0 <;>
    simp only [hy4, hy100, hy400] <;> simp_all <;> omega

theorem daysBeforeYear_le {y y' : ℕ} (h : y ≤ y') : daysBeforeYear y ≤ daysBeforeYear y' := by
  apply monotone_nat_of_le_succ _ h
  intro y
  rw [daysBeforeYear_succ]
  omega

theorem mul_le_daysBeforeYear (y : ℕ) : 365 * y ≤ daysBeforeYear y := by
  unfold daysBeforeYear
  omega

theorem le_yearOf {n y : ℕ} (h : daysBeforeYear y ≤ n) : y ≤ yearOf n := by
  have hy := mul_le_daysBeforeYear y
  exact Nat.le_findGreatest (by omega) h

theorem daysBeforeYear_yearOf (n : ℕ) : daysBeforeYear (yearOf n) ≤ n :=
  Nat.findGreatest_spec (P := fun y => daysBeforeYear y ≤ n) (Nat.zero_le _) (Nat.zero_le n)

theorem yearOf_mono {n n' : ℕ} (h : n ≤ n') : yearOf n ≤ yearOf n' :=
  le_yearOf ((daysBeforeYear_yearOf n).trans h)

/-- The year has not ended. -/
theorem yearDay_lt (n : ℕ) : yearDay n < 365 + if isLeap (yearOf n) then 1 else 0 := by
  have hbegun := daysBeforeYear_yearOf n
  have hnext : n < daysBeforeYear (yearOf n + 1) := by
    by_contra hle
    have := le_yearOf (Nat.not_lt.mp hle)
    omega
  rw [daysBeforeYear_succ] at hnext
  unfold yearDay
  omega

/-! ### Months -/

theorem daysBeforeMonth_zero (y : ℕ) : daysBeforeMonth y 0 = 0 := by simp [daysBeforeMonth]

theorem monthOf_le (n : ℕ) : monthOf n ≤ 11 := Nat.findGreatest_le 11

theorem daysBeforeMonth_monthOf (n : ℕ) : daysBeforeMonth (yearOf n) (monthOf n) ≤ yearDay n :=
  Nat.findGreatest_spec (P := fun m => daysBeforeMonth (yearOf n) m ≤ yearDay n) (Nat.zero_le _)
    (by simp [daysBeforeMonth_zero])

theorem le_monthOf {n m : ℕ} (hm : m ≤ 11) (h : daysBeforeMonth (yearOf n) m ≤ yearDay n) :
    m ≤ monthOf n :=
  Nat.le_findGreatest hm h

/-- No month has more than 31 days. -/
theorem daysBeforeMonth_succ_le {y m : ℕ} (hm : m ≤ 11) :
    daysBeforeMonth y (m + 1) ≤ daysBeforeMonth y m + 31 := by
  unfold daysBeforeMonth
  interval_cases m <;> simp only [List.getD] <;> split <;> split <;> simp_all

/-- The month has not ended. -/
theorem yearDay_lt_monthOf (n : ℕ) : yearDay n < daysBeforeMonth (yearOf n) (monthOf n + 1) := by
  by_cases hm : monthOf n = 11
  · have h := yearDay_lt n
    rw [hm]
    simpa [daysBeforeMonth] using h
  · by_contra hle
    have hle' := monthOf_le n
    have := le_monthOf (by omega) (Nat.not_lt.mp hle)
    omega

/-! ### Dates -/

theorem month_civil (n : ℕ) : 1 ≤ (civil n).month ∧ (civil n).month ≤ 12 := by
  have h := monthOf_le n
  simp only [civil]
  omega

theorem day_civil (n : ℕ) : 1 ≤ (civil n).day ∧ (civil n).day ≤ 31 := by
  have hbegun := daysBeforeMonth_monthOf n
  have hends := yearDay_lt_monthOf n
  have hlong := daysBeforeMonth_succ_le (y := yearOf n) (monthOf_le n)
  simp only [civil]
  omega

theorem year_civil_lt {n y : ℕ} (h : n < daysBeforeYear y) : (civil n).year < y := by
  by_contra hle
  have hmono := daysBeforeYear_le (Nat.not_lt.mp hle)
  have hbegun := daysBeforeYear_yearOf n
  simp only [civil] at hmono
  omega

/-- **Dates come in the order of their days.** -/
theorem civil_lt {n n' : ℕ} (h : n < n') :
    (civil n).year < (civil n').year ∨ (civil n).year = (civil n').year ∧
      ((civil n).month < (civil n').month ∨ (civil n).month = (civil n').month ∧
        (civil n).day < (civil n').day) := by
  have hyears := yearOf_mono h.le
  simp only [civil]
  rcases Nat.lt_or_eq_of_le hyears with hyear | hyear
  · exact Or.inl hyear
  refine Or.inr ⟨hyear, ?_⟩
  have hday : yearDay n < yearDay n' := by
    have hbegun := daysBeforeYear_yearOf n
    unfold yearDay
    rw [← hyear]
    omega
  have hbegun := daysBeforeMonth_monthOf n
  have hmonths : monthOf n ≤ monthOf n' := by
    apply le_monthOf (monthOf_le n)
    rw [← hyear]
    omega
  rcases Nat.lt_or_eq_of_le hmonths with hmonth | hmonth
  · exact Or.inl (by omega)
  · refine Or.inr ⟨by omega, ?_⟩
    rw [← hyear, ← hmonth]
    omega

/-- **Round trip.** -/
theorem dayOf_civil (n : ℕ) : dayOf (civil n) = n := by
  have hyear := daysBeforeYear_yearOf n
  have hmonth := daysBeforeMonth_monthOf n
  simp only [dayOf, civil, Nat.add_sub_cancel]
  unfold yearDay at hmonth ⊢
  omega

end Calendar
