import Mathlib.Data.Nat.Find
import Mathlib.Order.Monotone.Basic
import Mathlib.Tactic.Common

/- This file counts the months of the common calendar since 1970 and places instants in them. -/

namespace NimbleBrain.Library.Months

/-- The milliseconds of a day. -/
def dayMs : Nat := 86400000

/-- The days of a common year before each month. -/
def daysBefore (month : Nat) : Nat := [0, 31, 59, 90, 120, 151, 181, 212, 243, 273, 304, 334].getD month 0

def isLeap (year : Nat) : Bool := year % 4 = 0 ∧ (year % 100 ≠ 0 ∨ year % 400 = 0)

/-- The leap days before a year. -/
def leapDays (year : Nat) : Nat := (year - 1) / 4 - (year - 1) / 100 + (year - 1) / 400

/-- The day on which a month starts, where month 0 is January 1970. -/
def firstDay (month : Nat) : Nat :=
  365 * (month / 12) + (leapDays (1970 + month / 12) - leapDays 1970) + daysBefore (month % 12) +
    if isLeap (1970 + month / 12) = true ∧ 2 ≤ month % 12 then 1 else 0

/-- The first instant of a month. -/
def monthStart (month : Nat) : Nat := dayMs * firstDay month

/-- The month of an instant. No month has fewer than 28 days. -/
def monthOf (time : Nat) : Nat := Nat.findGreatest (fun month => monthStart month ≤ time) (time / dayMs / 28)

/-- A quotient grows where its divisor divides the next number. -/
theorem div_succ (number divisor : Nat) (positive : 0 < number) :
    number / divisor = (number - 1) / divisor + if number % divisor = 0 then 1 else 0 := by
  obtain ⟨before, rfl⟩ := Nat.exists_eq_add_of_lt positive
  rw [Nat.zero_add, Nat.add_sub_cancel, Nat.succ_div]
  simp only [Nat.dvd_iff_mod_eq_zero]

theorem leapDays_succ (year : Nat) (positive : 0 < year) :
    leapDays (year + 1) = leapDays year + if isLeap year = true then 1 else 0 := by
  have fourth := div_succ year 4 positive
  have hundredth := div_succ year 100 positive
  have fourHundredth := div_succ year 400 positive
  have smaller : (year - 1) / 100 ≤ (year - 1) / 4 := Nat.div_le_div_left (by decide) (by decide)
  have century : year % 100 = 0 → year % 4 = 0 := by omega
  have era : year % 400 = 0 → year % 100 = 0 := by omega
  simp only [leapDays, isLeap, decide_eq_true_eq, Nat.add_sub_cancel]
  rw [fourth, hundredth, fourHundredth]
  generalize (year - 1) / 4 = fours at *
  generalize (year - 1) / 100 = hundreds at *
  generalize (year - 1) / 400 = fourHundreds at *
  by_cases four : year % 4 = 0 <;> by_cases hundred : year % 100 = 0 <;> by_cases last : year % 400 = 0 <;>
    simp_all <;> omega

theorem leapDays_le (years : Nat) : leapDays 1970 ≤ leapDays (1970 + years) := by
  induction years with
  | zero => exact le_rfl
  | succ years ih =>
      rw [← Nat.add_assoc, leapDays_succ (1970 + years) (by omega)]
      exact Nat.le_add_right_of_le ih

theorem daysBefore_succ : ∀ month < 11, daysBefore month + 28 ≤ daysBefore (month + 1) := by decide

theorem firstDay_succ (month : Nat) : firstDay month + 28 ≤ firstDay (month + 1) := by
  have known := leapDays_le (month / 12)
  have place : month % 12 < 12 := Nat.mod_lt _ (by decide)
  rcases Nat.lt_or_ge (month % 12) 11 with within | last
  · have year : (month + 1) / 12 = month / 12 := by omega
    have later : (month + 1) % 12 = month % 12 + 1 := by omega
    have days := daysBefore_succ (month % 12) within
    rw [firstDay, firstDay, year, later]
    cases isLeap (1970 + month / 12) with
    | false =>
        simp only [Bool.false_eq_true, false_and, if_false]
        omega
    | true =>
        simp only [true_and]
        split_ifs <;> omega
  · have year : (month + 1) / 12 = month / 12 + 1 := by omega
    have first : (month + 1) % 12 = 0 := by omega
    have december : month % 12 = 11 := by omega
    have next := leapDays_succ (1970 + month / 12) (by omega)
    rw [firstDay, firstDay, year, first, december, ← Nat.add_assoc, next]
    cases isLeap (1970 + month / 12) <;> simp [daysBefore] <;> omega

/-- Later months start later. -/
theorem monthStart_strictMono : StrictMono monthStart := by
  apply strictMono_nat_of_lt_succ
  intro month
  have := firstDay_succ month
  exact Nat.mul_lt_mul_of_pos_left (by omega) (by decide)

theorem firstDay_ge (month : Nat) : 28 * month ≤ firstDay month := by
  induction month with
  | zero => exact Nat.zero_le _
  | succ month ih =>
      have := firstDay_succ month
      omega

theorem le_of_monthStart_le {month time : Nat} (started : monthStart month ≤ time) : month ≤ time / dayMs / 28 := by
  have days : firstDay month ≤ time / dayMs := by
    rw [Nat.le_div_iff_mul_le (by decide), Nat.mul_comm]
    exact started
  rw [Nat.le_div_iff_mul_le (by decide), Nat.mul_comm]
  exact (firstDay_ge month).trans days

/-- An instant is in its month. -/
theorem monthStart_monthOf_le (time : Nat) : monthStart (monthOf time) ≤ time :=
  @Nat.findGreatest_spec 0 (fun month => monthStart month ≤ time) _ _ (Nat.zero_le _) (Nat.zero_le _)

theorem lt_monthStart_succ (time : Nat) : time < monthStart (monthOf time + 1) := by
  by_contra started
  have listed := le_of_monthStart_le (not_lt.mp started)
  exact Nat.findGreatest_is_greatest (Nat.lt_succ_self (monthOf time)) listed (not_lt.mp started)

end NimbleBrain.Library.Months
