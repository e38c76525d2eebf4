import NetObserver.Calendar
import Mathlib.Logic.Function.Iterate

/-! Dates by their number, and civil times by the nanoseconds from 1970-01-01 00:00:00 to each. -/

namespace Calendar

instance (year : Int) (month day : Nat) : Decidable (IsDate year month day) :=
  inferInstanceAs (Decidable (1 ≤ month ∧ month ≤ 12 ∧ 1 ≤ day ∧ day ≤ monthLength year month))

namespace Date

theorem isDate_last (year : Int) {month : Nat} (low : 1 ≤ month) (high : month ≤ 12) :
    IsDate year month (monthLength year month) := by
  have length := monthLength_ge year month
  exact ⟨low, high, by omega, Nat.le_refl _⟩

/-- The last of a month. -/
def last (year : Int) (month : Nat) (low : 1 ≤ month) (high : month ≤ 12) : Date :=
  ⟨year, month, monthLength year month, isDate_last year low high⟩

theorem isDate_earlier {year : Int} {month day : Nat} (date : IsDate year month day)
    (late : 1 < day) : IsDate year month (day - 1) := by
  obtain ⟨low, high, _, within⟩ := date
  exact ⟨low, high, by omega, by omega⟩

/-- The date before. -/
def prev (d : Date) : Date :=
  if late : 1 < d.day then ⟨d.year, d.month, d.day - 1, isDate_earlier d.isDate late⟩
  else if later : 1 < d.month then
    last d.year (d.month - 1) (Nat.le_sub_of_add_le later)
      (Nat.le_trans (Nat.sub_le _ _) d.isDate.2.1)
  else last (d.year - 1) 12 (Nat.le_add_left 1 11) (Nat.le_refl 12)

theorem number_prev (d : Date) : d.prev.number = d.number - 1 := by
  obtain ⟨year, month, day, low, high, least, within⟩ := d
  unfold prev
  split
  next late =>
    have step := dayNumber_day year month (day - 1)
    rw [Nat.sub_add_cancel least] at step
    change dayNumber year month (day - 1) = dayNumber year month day - 1
    omega
  next first_ =>
    have one : day = 1 := by
      simp only at first_
      omega
    subst one
    split
    next later =>
      simp only at later
      have before : 1 ≤ month - 1 := by omega
      have step := dayNumber_month year before (by omega)
      rw [Nat.sub_add_cancel low] at step
      change dayNumber year (month - 1) (monthLength year (month - 1)) = dayNumber year month 1 - 1
      omega
    next january =>
      have one : month = 1 := by
        simp only at january
        omega
      subst one
      have step := dayNumber_year (year - 1)
      rw [Int.sub_add_cancel] at step
      change dayNumber (year - 1) 12 31 = dayNumber year 1 1 - 1
      omega

/-- The date of a number. -/
def ofNumber : Int → Date
  | .ofNat n => next^[n] epoch
  | .negSucc n => prev^[n + 1] epoch

theorem number_iterate_next (n : Nat) : (next^[n] epoch).number = n := by
  induction n with
  | zero => exact dayNumber_epoch
  | succ n ih =>
    rw [Function.iterate_succ_apply', number_next, ih]
    omega

theorem number_iterate_prev (n : Nat) : (prev^[n] epoch).number = -n := by
  induction n with
  | zero => exact dayNumber_epoch
  | succ n ih =>
    rw [Function.iterate_succ_apply', number_prev, ih]
    omega

theorem number_ofNumber (n : Int) : (ofNumber n).number = n := by
  cases n with
  | ofNat n => exact number_iterate_next n
  | negSucc n =>
    have back := number_iterate_prev (n + 1)
    have same : Int.negSucc n = -((n + 1 : Nat) : Int) := rfl
    rw [same]
    exact back

/-- No more leap days in fewer years. -/
theorem leapDays_mono {a b : Int} (le : a ≤ b) :
    a / 4 - a / 100 + a / 400 ≤ b / 4 - b / 100 + b / 400 := by
  have quarters : a / 4 ≤ b / 4 := Int.ediv_le_ediv (by omega) le
  have centuries : a / 100 ≤ b / 100 := Int.ediv_le_ediv (by omega) le
  have eras : a / 400 ≤ b / 400 := Int.ediv_le_ediv (by omega) le
  have a25 : a / 100 = a / 4 / 25 := by omega
  have b25 : b / 100 = b / 4 / 25 := by omega
  omega

/-- The days of a year counted from March, and of the years in front of it. -/
theorem number_eq (d : Date) : ∃ y m : Int, d.number =
    365 * y + (y / 4 - y / 100 + y / 400) + m + d.day - 719469 ∧
      (y = d.year ∧ 0 ≤ m ∧ m ≤ 275 ∨ y = d.year - 1 ∧ 306 ≤ m ∧ m ≤ 337) := by
  obtain ⟨year, month, day, low, high, least, within⟩ := d
  refine ⟨if month ≤ 2 then year - 1 else year, ((153 * ((month + 9) % 12) + 2) / 5 : Nat), ?_, ?_⟩
  · unfold number dayNumber
    dsimp only
    generalize (if month ≤ 2 then year - 1 else year) = y
    omega
  · dsimp only
    split
    next early =>
      have front : (month + 9) % 12 = month + 9 := by omega
      rw [front]
      omega
    next late =>
      have front : (month + 9) % 12 = month - 3 := by omega
      rw [front]
      omega

theorem number_first (year : Int) : (first year 1 january_low january_high).number =
    365 * (year - 1) + ((year - 1) / 4 - (year - 1) / 100 + (year - 1) / 400) + 306 + 1 - 719469 := by
  unfold number dayNumber first
  simp only [Nat.reduceLeDiff, if_true, Nat.reduceAdd, Nat.reduceMod, Nat.reduceMul, Nat.reduceDiv]
  generalize year - 1 = y
  omega

/-- All of a year is in front of the next year's first date. -/
theorem number_lt_first {d : Date} {year : Int} (earlier : d.year < year) :
    d.number < (first year 1 january_low january_high).number := by
  obtain ⟨y, m, own, march⟩ := number_eq d
  have days := d.days
  have leaps : y / 4 - y / 100 + y / 400 ≤
      (year - 1) / 4 - (year - 1) / 100 + (year - 1) / 400 := leapDays_mono (by omega)
  rw [own, number_first]
  generalize y / 4 - y / 100 + y / 400 = a at *
  generalize (year - 1) / 4 - (year - 1) / 100 + (year - 1) / 400 = b at *
  omega

/-- A year's first date is the first of all from it on. -/
theorem first_le_number {d : Date} {year : Int} (le : year ≤ d.year) :
    (first year 1 january_low january_high).number ≤ d.number := by
  obtain ⟨y, m, own, march⟩ := number_eq d
  have days := d.isDate.2.2.1
  have leaps : (year - 1) / 4 - (year - 1) / 100 + (year - 1) / 400 ≤
      y / 4 - y / 100 + y / 400 := leapDays_mono (by omega)
  rw [own, number_first]
  generalize y / 4 - y / 100 + y / 400 = a at *
  generalize (year - 1) / 4 - (year - 1) / 100 + (year - 1) / 400 = b at *
  omega

/-- A later month of a year is behind all of this one. -/
theorem number_lt_month {d : Date} {month : Nat} (later : d.month < month) (high : month ≤ 12) :
    d.number < dayNumber d.year month 1 := by
  obtain ⟨year, own, day, low, most, least, within⟩ := d
  simp only at later
  unfold number
  dsimp only
  have inMonth : dayNumber year own day ≤ dayNumber year own (monthLength year own) := by
    unfold dayNumber
    dsimp only
    omega
  induction month, later using Nat.le_induction with
  | base =>
    rw [Nat.succ_eq_add_one] at high ⊢
    have step := dayNumber_month year low high
    omega
  | succ month behind ih =>
    have positive : 1 ≤ month := by omega
    have step := dayNumber_month year positive high
    have before := ih (by omega)
    have length := monthLength_ge year month
    have first_ : dayNumber year month 1 ≤ dayNumber year month (monthLength year month) := by
      unfold dayNumber
      dsimp only
      omega
    omega

theorem first_le_month (d : Date) : dayNumber d.year d.month 1 ≤ d.number := by
  have least := d.isDate.2.2.1
  unfold number dayNumber
  dsimp only
  omega

/-- No two dates have one number. -/
theorem number_injective {a b : Date} (same : a.number = b.number) : a = b := by
  have year : a.year = b.year := by
    rcases Int.lt_trichotomy a.year b.year with earlier | equal | later
    · have before := number_lt_first earlier
      have behind := first_le_number (Int.le_refl b.year)
      omega
    · exact equal
    · have before := number_lt_first later
      have behind := first_le_number (Int.le_refl a.year)
      omega
  have month : a.month = b.month := by
    rcases Nat.lt_trichotomy a.month b.month with earlier | equal | later
    · have before := number_lt_month earlier b.isDate.2.1
      have behind := first_le_month b
      rw [year] at before
      omega
    · exact equal
    · have before := number_lt_month later a.isDate.2.1
      have behind := first_le_month a
      rw [← year] at before
      omega
  obtain ⟨y, m, d, _⟩ := a
  obtain ⟨y', m', d', _⟩ := b
  simp only at year month
  subst year month
  have day : d = d' := by
    unfold number dayNumber at same
    dsimp only at same
    omega
  subst day
  rfl

end Date

/-- A day of an era of 400 years: its century, the four years of that, the year of these and the day
of the year, counted from March. The last day of four years is a leap day, but for that of a century
that does not end the era. -/
theorem exists_eraDay {doe : Int} (low : 0 ≤ doe) (high : doe < 146097) : ∃ c q t doy : Int,
    doe = 36524 * c + 1461 * q + 365 * t + doy ∧ (0 ≤ c ∧ c ≤ 3) ∧ (0 ≤ q ∧ q ≤ 24) ∧
      (0 ≤ t ∧ t ≤ 3) ∧ 0 ≤ doy ∧ (doy ≤ 364 ∨ doy = 365 ∧ t = 3 ∧ (q ≤ 23 ∨ c = 3)) := by
  obtain ⟨c, century⟩ : ∃ c : Int, c = min 3 (doe / 36524) := ⟨_, rfl⟩
  obtain ⟨r, rest⟩ : ∃ r : Int, r = doe - 36524 * c := ⟨_, rfl⟩
  have inCentury : 0 ≤ r ∧ (r ≤ 36523 ∨ r = 36524 ∧ c = 3) := by omega
  obtain ⟨q, four⟩ : ∃ q : Int, q = r / 1461 := ⟨_, rfl⟩
  obtain ⟨s, rest'⟩ : ∃ s : Int, s = r - 1461 * q := ⟨_, rfl⟩
  have inFour : 0 ≤ s ∧ s ≤ 1460 ∧ (s ≤ 1459 ∨ q ≤ 23 ∨ c = 3) := by omega
  obtain ⟨t, one⟩ : ∃ t : Int, t = min 3 (s / 365) := ⟨_, rfl⟩
  refine ⟨c, q, t, s - 365 * t, ?_, ?_, ?_, ?_, ?_, ?_⟩
  · omega
  · omega
  · omega
  · omega
  · omega
  · omega

/-- The year of an era out of its day, by one division. -/
theorem yearOfEra {c q t doy : Int} (century : 0 ≤ c ∧ c ≤ 3) (four : 0 ≤ q ∧ q ≤ 24)
    (one : 0 ≤ t ∧ t ≤ 3) (low : 0 ≤ doy)
    (high : doy ≤ 364 ∨ doy = 365 ∧ t = 3 ∧ (q ≤ 23 ∨ c = 3)) {doe : Int}
    (day : doe = 36524 * c + 1461 * q + 365 * t + doy) :
    (doe - doe / 1460 + doe / 36524 - doe / 146096) / 365 = 100 * c + 4 * q + t := by
  have fours : doe / 1460 = 25 * c + q + (24 * c + q + 365 * t + doy) / 1460 := by omega
  have inCentury : 36524 * c ≤ doe ∧ (doe < 36524 * c + 36524 ∨ doe = 146096 ∧ c = 3) := by omega
  have centuries : doe / 36524 - doe / 146096 = c := by
    rcases inCentury.2 with inside | last
    · have whole : doe / 36524 = c := by omega
      have none_ : doe / 146096 = 0 := by omega
      omega
    · omega
  omega

/-- The month and the day of a day of the year counted from March. -/
theorem marchMonth {doy : Int} (low : 0 ≤ doy) (high : doy ≤ 365) :
    0 ≤ (5 * doy + 2) / 153 ∧ (5 * doy + 2) / 153 ≤ 11 ∧
      1 ≤ doy - (153 * ((5 * doy + 2) / 153) + 2) / 5 + 1 ∧
      doy - (153 * ((5 * doy + 2) / 153) + 2) / 5 + 1 ≤ 31 := by
  omega

/-- The lengths of the months from March to January. -/
theorem monthLength_march (year : Int) {mp : Int} (low : 0 ≤ mp) (high : mp ≤ 10) :
    monthLength year (if mp < 10 then mp + 3 else mp - 9).toNat =
      if mp = 1 ∨ mp = 3 ∨ mp = 6 ∨ mp = 8 then 30 else 31 := by
  interval_cases mp
  all_goals rfl

/-- A day of the year counted from March is a day of its month. -/
theorem isDate_march {y doy mp : Int} (low : 0 ≤ doy) (high : doy ≤ 365)
    (leap : doy = 365 → isLeap (y + 1) = true) (month : mp = (5 * doy + 2) / 153) :
    IsDate (if mp < 10 then y else y + 1) (if mp < 10 then mp + 3 else mp - 9).toNat
      (doy - (153 * mp + 2) / 5 + 1).toNat := by
  have first_ : 0 ≤ mp := by omega
  have last_ : mp ≤ 11 := by omega
  refine ⟨by split <;> omega, by split <;> omega, by omega, ?_⟩
  by_cases february : mp = 11
  · have begins : 337 ≤ doy := by omega
    have length : doy - 337 < monthLength (y + 1) 2 := by
      unfold monthLength
      rw [if_pos rfl]
      split
      next => omega
      next common =>
        have short : doy ≠ 365 := fun same => common (leap same)
        omega
    rw [february]
    change (doy - 337 + 1).toNat ≤ monthLength (y + 1) 2
    omega
  · rw [monthLength_march _ first_ (by omega)]
    split
    next thirty => omega
    next => omega

/-- What the rules for leap years read off a year of an era. -/
theorem eraYear_div {c q t : Int} (century : 0 ≤ c ∧ c ≤ 3) (four : 0 ≤ q ∧ q ≤ 24)
    (one : 0 ≤ t ∧ t ≤ 3) (era : Int) :
    (100 * c + 4 * q + t + era * 400) / 4 = 25 * c + q + era * 100 ∧
      (100 * c + 4 * q + t + era * 400) / 100 = c + era * 4 ∧
      (100 * c + 4 * q + t + era * 400) / 400 = era := by
  refine ⟨by omega, by omega, by omega⟩

theorem isLeap_eraYear {c q : Int} (four : 0 ≤ q ∧ q ≤ 24)
    (rule : q ≤ 23 ∨ c = 3) (era : Int) : isLeap (100 * c + 4 * q + 3 + era * 400 + 1) = true := by
  unfold isLeap
  rw [Bool.and_eq_true, Bool.or_eq_true, decide_eq_true_eq, decide_eq_true_eq, bne_iff_ne]
  omega

/-- A date in the year that is counted from March. -/
theorem dayNumber_march_year {y mp : Int} {d : Nat} (low : 0 ≤ mp) (high : mp ≤ 11) :
    dayNumber (if mp < 10 then y else y + 1) (if mp < 10 then mp + 3 else mp - 9).toNat d =
      365 * y + y / 4 - y / 100 + y / 400 + (153 * mp + 2) / 5 + d - 1 - 719468 := by
  have march : (if (if mp < 10 then mp + 3 else mp - 9).toNat ≤ 2 then
      (if mp < 10 then y else y + 1) - 1 else if mp < 10 then y else y + 1) = y := by
    by_cases early : mp < 10
    · rw [if_pos early, if_pos early, if_neg (by omega)]
    · rw [if_neg early, if_neg early, if_pos (by omega)]
      omega
  have front : (((if mp < 10 then mp + 3 else mp - 9).toNat + 9) % 12 : Nat) = mp.toNat := by
    split <;> omega
  have start : (((153 * mp.toNat + 2) / 5 : Nat) : Int) = (153 * mp + 2) / 5 := by omega
  unfold dayNumber
  dsimp only
  rw [march, front, start]

/-- The date of a number, by its era, the year of that, and the day of the year from March. -/
theorem exists_date {z era doe yoe doy mp : Int} (era_ : era = z / 146097) (doe_ : doe = z % 146097)
    (yoe_ : yoe = (doe - doe / 1460 + doe / 36524 - doe / 146096) / 365)
    (doy_ : doy = doe - (365 * yoe + yoe / 4 - yoe / 100)) (mp_ : mp = (5 * doy + 2) / 153) :
    (0 ≤ yoe ∧ yoe ≤ 399) ∧ (0 ≤ doy ∧ doy ≤ 365) ∧ ∃ d : Date,
      d.year = (if mp < 10 then yoe + era * 400 else yoe + era * 400 + 1) ∧
      d.month = (if mp < 10 then mp + 3 else mp - 9).toNat ∧
      d.day = (doy - (153 * mp + 2) / 5 + 1).toNat ∧ d.number = z - 719468 := by
  have inEra : 0 ≤ doe ∧ doe < 146097 := by omega
  have split : z = era * 146097 + doe := by omega
  obtain ⟨c, q, t, day, whole, century, four, one, low, high⟩ := exists_eraDay inEra.1 inEra.2
  have year := yearOfEra century four one low high whole
  rw [← yoe_] at year
  clear yoe_ era_ doe_
  subst year
  have plain := eraYear_div century four one 0
  have own : doy = day := by
    simp only [Int.zero_mul, Int.add_zero] at plain
    rw [doy_, plain.1, plain.2.1, whole]
    clear plain
    omega
  subst own
  clear doy_ plain
  have within : 0 ≤ doy ∧ doy ≤ 365 := by
    refine ⟨low, ?_⟩
    rcases high with day | last
    · omega
    · omega
  have leap : doy = 365 → isLeap (100 * c + 4 * q + t + era * 400 + 1) = true := by
    intro last
    rcases high with day | ⟨_, third, rule⟩
    · omega
    · rw [third]
      exact isLeap_eraYear four rule era
  have isDate := isDate_march within.1 within.2 leap mp_
  refine ⟨by omega, within, ⟨_, _, _, isDate⟩, rfl, rfl, rfl, ?_⟩
  obtain ⟨first_, last_, least, _⟩ := marchMonth within.1 within.2
  rw [← mp_] at first_ last_ least
  obtain ⟨fours, hundreds, eras⟩ := eraYear_div century four one era
  change dayNumber _ _ _ = _
  rw [dayNumber_march_year first_ last_, fours, hundreds, eras, split, whole,
    Int.toNat_of_nonneg (by omega)]
  omega

/-- A time of day. -/
structure TimeOfDay where
  hour : Nat
  minute : Nat
  second : Nat
  nanosecond : Nat
  within : hour ≤ 23 ∧ minute ≤ 59 ∧ second ≤ 59 ∧ nanosecond ≤ 999999999

namespace TimeOfDay

/-- The nanoseconds since midnight. -/
def nanos (t : TimeOfDay) : Nat :=
  ((t.hour * 60 + t.minute) * 60 + t.second) * 1000000000 + t.nanosecond

def ofNanos (n : Nat) : TimeOfDay where
  hour := n / 3600000000000 % 24
  minute := n / 60000000000 % 60
  second := n / 1000000000 % 60
  nanosecond := n % 1000000000
  within := by omega

theorem nanos_ofNanos {n : Nat} (small : n < 86400000000000) : (ofNanos n).nanos = n := by
  unfold nanos ofNanos
  dsimp only
  omega

/-- Its whole second. -/
def toSecond (t : TimeOfDay) : TimeOfDay :=
  ⟨t.hour, t.minute, t.second, 0, t.within.1, t.within.2.1, t.within.2.2.1, Nat.zero_le _⟩

theorem nanos_toSecond (t : TimeOfDay) : t.toSecond.nanos + t.nanosecond = t.nanos := by
  unfold nanos toSecond
  dsimp only
  omega

end TimeOfDay

/-- A date and a time of day, with no zone. -/
structure DateTime where
  date : Date
  time : TimeOfDay

namespace DateTime

/-- The nanoseconds since 1970-01-01 00:00:00. -/
def nanos (dt : DateTime) : Int := dt.date.number * 86400000000000 + dt.time.nanos

def ofNanos (ns : Int) : DateTime :=
  ⟨Date.ofNumber (ns / 86400000000000), TimeOfDay.ofNanos (ns % 86400000000000).toNat⟩

theorem nanos_ofNanos (ns : Int) : (ofNanos ns).nanos = ns := by
  have rest : (TimeOfDay.ofNanos (ns % 86400000000000).toNat).nanos =
      (ns % 86400000000000).toNat := TimeOfDay.nanos_ofNanos (by omega)
  unfold nanos ofNanos
  rw [Date.number_ofNumber, rest]
  omega

/-- The civil time of its whole second. -/
def toSecond (dt : DateTime) : DateTime := ⟨dt.date, dt.time.toSecond⟩

/-- What is behind the whole second is cut. -/
theorem nanos_toSecond_ofNanos (ns : Int) :
    (ofNanos ns).toSecond.nanos = ns - ns % 1000000000 := by
  have whole := nanos_ofNanos ns
  have cut := TimeOfDay.nanos_toSecond (ofNanos ns).time
  have sub : ((ofNanos ns).time.nanosecond : Int) = ns % 1000000000 := by
    unfold ofNanos TimeOfDay.ofNanos
    dsimp only
    omega
  unfold nanos toSecond at *
  dsimp only
  omega

/-- A year begins with its first instant. -/
theorem year_le_iff {dt : DateTime} {year : Int} :
    year ≤ dt.date.year ↔ (Date.first year 1 Date.january_low Date.january_high).number * 86400000000000 ≤
      dt.nanos := by
  have small : dt.time.nanos < 86400000000000 := by
    have within := dt.time.within
    unfold TimeOfDay.nanos
    omega
  unfold nanos
  constructor
  · intro le
    have first_ : (Date.first year 1 Date.january_low Date.january_high).number ≤ dt.date.number :=
      Date.first_le_number le
    omega
  · intro behind
    by_contra earlier
    have before : dt.date.number < (Date.first year 1 Date.january_low Date.january_high).number :=
      Date.number_lt_first (by omega)
    omega

end DateTime

end Calendar
