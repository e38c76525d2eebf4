import Mathlib.Algebra.Order.Group.Int
import Mathlib.Data.Int.Init
import Mathlib.Data.Nat.Init
import Mathlib.Order.Basic
import Mathlib.Tactic.IntervalCases

/-! The proleptic Gregorian calendar: its dates one after the other, and the number of days from
1970-01-01 to each. -/

namespace Calendar

def isLeap (year : Int) : Bool := year % 4 = 0 && (year % 100 != 0 || year % 400 = 0)

def monthLength (year : Int) (month : Nat) : Nat :=
  if month = 2 then if isLeap year then 29 else 28
  else if month = 4 ∨ month = 6 ∨ month = 9 ∨ month = 11 then 30
  else 31

theorem monthLength_ge (year : Int) (month : Nat) : 28 ≤ monthLength year month := by
  unfold monthLength
  split
  · split <;> omega
  · split <;> omega

theorem monthLength_le (year : Int) (month : Nat) : monthLength year month ≤ 31 := by
  unfold monthLength
  split
  · split <;> omega
  · split <;> omega

def IsDate (year : Int) (month day : Nat) : Prop :=
  1 ≤ month ∧ month ≤ 12 ∧ 1 ≤ day ∧ day ≤ monthLength year month

structure Date where
  year : Int
  month : Nat
  day : Nat
  isDate : IsDate year month day

namespace Date

theorem months (d : Date) : 1 ≤ d.month ∧ d.month ≤ 12 := ⟨d.isDate.1, d.isDate.2.1⟩

theorem days (d : Date) : 1 ≤ d.day ∧ d.day ≤ 31 :=
  ⟨d.isDate.2.2.1, Nat.le_trans d.isDate.2.2.2 (monthLength_le d.year d.month)⟩

theorem isDate_first (year : Int) {month : Nat} (low : 1 ≤ month) (high : month ≤ 12) :
    IsDate year month 1 := by
  have length := monthLength_ge year month
  exact ⟨low, high, Nat.le_refl 1, by omega⟩

theorem isDate_later {year : Int} {month day : Nat} (date : IsDate year month day)
    (within : day < monthLength year month) : IsDate year month (day + 1) :=
  ⟨date.1, date.2.1, Nat.le_add_left 1 day, within⟩

theorem january_low : 1 ≤ 1 := Nat.le_refl 1

theorem january_high : 1 ≤ 12 := Nat.le_add_left 1 11

/-- The first of a month. -/
def first (year : Int) (month : Nat) (low : 1 ≤ month) (high : month ≤ 12) : Date :=
  ⟨year, month, 1, isDate_first year low high⟩

/-- The date after. -/
def next (d : Date) : Date :=
  if within : d.day < monthLength d.year d.month then
    ⟨d.year, d.month, d.day + 1, isDate_later d.isDate within⟩
  else if early : d.month < 12 then
    first d.year (d.month + 1) (Nat.le_add_left 1 d.month) early
  else first (d.year + 1) 1 january_low january_high

def epoch : Date := first 1970 1 january_low january_high

end Date

/-- Days since 1970-01-01 of a day in a month: years counted from March, whose lengths are a linear
term and three floors, and months of a March year by fifths. -/
def dayNumber (year : Int) (month day : Nat) : Int :=
  let y := if month ≤ 2 then year - 1 else year
  let monthFromMarch := (month + 9) % 12
  365 * y + y / 4 - y / 100 + y / 400 + ((153 * monthFromMarch + 2) / 5 : Nat) + day - 1 - 719468

theorem dayNumber_epoch : dayNumber 1970 1 1 = 0 := by decide

theorem dayNumber_day (year : Int) (month day : Nat) :
    dayNumber year month (day + 1) = dayNumber year month day + 1 := by
  unfold dayNumber
  dsimp only
  omega

/-- The day of the year, counted from March: a month begins where the one before it ends. -/
theorem monthStart_next {month : Nat} (low : 1 ≤ month) (high : month < 12) (notFebruary : month ≠ 2) :
    (153 * ((month + 1 + 9) % 12) + 2) / 5 = (153 * ((month + 9) % 12) + 2) / 5 +
      if month = 4 ∨ month = 6 ∨ month = 9 ∨ month = 11 then 30 else 31 := by
  interval_cases month
  all_goals first | rfl | exact absurd rfl notFebruary

/-- The leap day ends the year that begins in March. -/
theorem dayNumber_march (year : Int) :
    dayNumber year 3 1 = dayNumber year 2 (monthLength year 2) + 1 := by
  have length : (monthLength year 2 : Int) =
      28 + (year / 4 - (year - 1) / 4) - (year / 100 - (year - 1) / 100) +
        (year / 400 - (year - 1) / 400) := by
    unfold monthLength isLeap
    simp only [if_true, Bool.and_eq_true, Bool.or_eq_true, decide_eq_true_eq, bne_iff_ne]
    split
    next leap => omega
    next common => omega
  unfold dayNumber
  simp only [Nat.le_refl, Nat.reduceLeDiff, if_true, if_false, Nat.reduceAdd, Nat.reduceMod,
    Nat.reduceMul, Nat.reduceDiv]
  omega

/-- From the last of a month to the first of the next. -/
theorem dayNumber_month (year : Int) {month : Nat} (low : 1 ≤ month) (high : month < 12) :
    dayNumber year (month + 1) 1 = dayNumber year month (monthLength year month) + 1 := by
  by_cases february : month = 2
  · subst february
    exact dayNumber_march year
  · have start := monthStart_next low high february
    have length : monthLength year month =
        if month = 4 ∨ month = 6 ∨ month = 9 ∨ month = 11 then 30 else 31 := if_neg february
    have same : (month + 1 ≤ 2) = (month ≤ 2) := by
      rw [eq_iff_iff]
      omega
    unfold dayNumber
    dsimp only
    rw [start, length]
    simp only [same]
    omega

theorem dayNumber_year (year : Int) : dayNumber (year + 1) 1 1 = dayNumber year 12 31 + 1 := by
  unfold dayNumber
  simp only [Nat.reduceLeDiff, if_true, if_false, Nat.reduceAdd, Nat.reduceMod]
  omega

namespace Date

def number (d : Date) : Int := dayNumber d.year d.month d.day

theorem number_next (d : Date) : d.next.number = d.number + 1 := by
  obtain ⟨year, month, day, low, high, first_, last⟩ := d
  unfold next
  split
  next => exact dayNumber_day year month day
  next ended =>
    have atEnd : day = monthLength year month := by
      simp only at ended
      omega
    subst atEnd
    split
    next early => exact dayNumber_month year low early
    next december =>
      have twelve : month = 12 := by
        simp only at december
        omega
      subst twelve
      exact dayNumber_year year

section

variable {g : Date → Int} (same : ∀ d : Date, g d.next = g d)

include same

/-- What no step to the next date changes is the same all month. -/
theorem const_in_month {year : Int} {month day : Nat} (isDate : IsDate year month day) :
    g ⟨year, month, day, isDate⟩ = g (first year month isDate.1 isDate.2.1) := by
  obtain ⟨low, high, atLeast, atMost⟩ := isDate
  induction day, atLeast using Nat.le_induction with
  | base => rfl
  | succ day atLeast ih =>
    have within : day < monthLength year month := atMost
    have step := same ⟨year, month, day, low, high, atLeast, Nat.le_of_lt within⟩
    rw [next, dif_pos within] at step
    exact step.trans (ih (Nat.le_of_lt within))

theorem const_to_next_month {year : Int} {month : Nat} (low : 1 ≤ month) (high : month < 12) :
    g (first year (month + 1) (Nat.le_add_left 1 month) high) =
      g (first year month low (Nat.le_of_lt high)) := by
  have length := monthLength_ge year month
  have isLast : IsDate year month (monthLength year month) :=
    ⟨low, Nat.le_of_lt high, by omega, Nat.le_refl _⟩
  have step := same ⟨year, month, monthLength year month, isLast⟩
  rw [next, dif_neg (Nat.lt_irrefl _), dif_pos high] at step
  exact step.trans (const_in_month same isLast)

theorem const_in_year {year : Int} {month : Nat} (low : 1 ≤ month) (high : month ≤ 12) :
    g (first year month low high) = g (first year 1 january_low january_high) := by
  induction month, low using Nat.le_induction with
  | base => rfl
  | succ month low ih =>
    exact (const_to_next_month same low high).trans (ih (Nat.le_of_lt high))

theorem const_to_next_year (year : Int) :
    g (first (year + 1) 1 january_low january_high) =
      g (first year 1 january_low january_high) := by
  have isLast : IsDate year 12 31 := ⟨by omega, by omega, by omega, Nat.le_refl 31⟩
  have ended : ¬ (31 < monthLength year 12) := Nat.lt_irrefl 31
  have step := same ⟨year, 12, 31, isLast⟩
  rw [next, dif_neg ended, dif_neg (Nat.lt_irrefl 12)] at step
  exact (step.trans (const_in_month same isLast)).trans (const_in_year same _ _)

theorem const_of_next (d : Date) : g d = g epoch := by
  obtain ⟨year, month, day, isDate⟩ := d
  rw [const_in_month same isDate, const_in_year same]
  clear isDate
  induction year using Int.inductionOn' (b := 1970) with
  | zero => rfl
  | succ year _ ih => exact (const_to_next_year same year).trans ih
  | pred year _ ih =>
    have step := const_to_next_year same (year - 1)
    simp only [Int.sub_add_cancel] at step
    exact step.symm.trans ih

end

/-- The number of days is the one count of the dates from 1970-01-01 that grows by one from each
date to the next. -/
theorem number_unique {count : Date → Int} (zero : count epoch = 0)
    (step : ∀ d : Date, count d.next = count d + 1) (d : Date) : count d = d.number := by
  have same : ∀ d : Date, count d.next - d.next.number = count d - d.number := by
    intro d
    rw [step, number_next]
    omega
  have const := const_of_next (g := fun d => count d - d.number) same d
  simp only [zero] at const
  have start : epoch.number = 0 := dayNumber_epoch
  omega

end Date

end Calendar
