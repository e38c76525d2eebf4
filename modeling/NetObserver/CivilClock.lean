import NetObserver.CivilTimes
import NetObserver.LogRendering

/-! The client's clock of a frame, its dates out of day counts, and the way back that the log's
parser goes. -/

namespace NetObserver

open Machine Calendar SingboxLog

section

variable {M : Type → Type} [Monad M] (fit : Int → M Int)

/-- A 64-bit value as an unsigned one of 32 bits. -/
def asU32 (x : Int) : Nat := (x % 4294967296).toNat

/-- The code's divisions to the floor are Lean's, and the others are by positive numbers. -/
def civilFromDays (days : Int) : M (Int × Nat × Nat) := do
  let z ← fit (days + 719468)
  let era := z / 146097
  let doe := z % 146097
  let shifted ← fit ((← fit ((← fit (doe - doe.tdiv 1460)) + doe.tdiv 36524)) - doe.tdiv 146096)
  let yoe := shifted.tdiv 365
  let y ← fit (yoe + (← fit (era * 400)))
  let leaps ← fit ((← fit ((← fit (365 * yoe)) + yoe.tdiv 4)) - yoe.tdiv 100)
  let doy ← fit (doe - leaps)
  let scaled ← fit ((← fit (5 * doy)) + 2)
  let mp := scaled.tdiv 153
  let begins ← fit ((← fit (153 * mp)) + 2)
  let d ← fit ((← fit (doy - begins.tdiv 5)) + 1)
  let m ← (if mp < 10 then fit (mp + 3) else fit (mp - 9))
  let y ← (if asU32 m ≤ 2 then fit (y + 1) else pure y)
  pure (y, asU32 m, asU32 d)

end

theorem goes_on {α β : Type} {o : Option β} {v : β} {f : β → Option α} {w : Option α}
    (own : o = some v) (rest : f v = w) : (o >>= f) = w := by
  rw [own]
  exact rest

theorem fitsI64_small {x : Int} (small : -4611686018427387904 ≤ x ∧ x ≤ 4611686018427387904) :
    FitsI64 x := by
  unfold FitsI64 i64Min i64Max
  omega

theorem checkedI64_fits {x : Int} (fits : FitsI64 x) : checkedI64 x = some x :=
  checkedI64_eq_some.mpr ⟨fits, rfl⟩

/-- An operation far from the ends of the 64-bit values goes on with its exact result. -/
theorem checkedI64_step {α : Type} {x v : Int} {f : Int → Option α} {w : Option α} (value : x = v)
    (small : -4611686018427387904 ≤ v ∧ v ≤ 4611686018427387904) (rest : f v = w) :
    (checkedI64 x >>= f) = w := by
  have own : checkedI64 x = some v := by
    rw [value]
    exact checkedI64_fits (fitsI64_small small)
  exact goes_on own rest

theorem asU32_small {x : Int} (small : 0 ≤ x ∧ x ≤ 4294967295) : asU32 x = x.toNat := by
  unfold asU32
  rw [Int.emod_eq_of_lt small.1 (by omega)]

section

variable {days z era doe yoe doy mp : Int}

theorem checkedI64_month (front : 0 ≤ mp ∧ mp ≤ 11) :
    (if mp < 10 then checkedI64 (mp + 3) else checkedI64 (mp - 9)) =
      some (if mp < 10 then mp + 3 else mp - 9) := by
  by_cases early : mp < 10
  · rw [if_pos early, if_pos early]
    exact checkedI64_fits (fitsI64_small (by omega))
  · rw [if_neg early, if_neg early]
    exact checkedI64_fits (fitsI64_small (by omega))

/-- Years begin in January, and the day is counted from March. -/
theorem checkedI64_year (front : 0 ≤ mp ∧ mp ≤ 11) {y : Int}
    (small : -4611686018427387904 ≤ y + 1 ∧ y + 1 ≤ 4611686018427387904) :
    (if (if mp < 10 then mp + 3 else mp - 9).toNat ≤ 2 then checkedI64 (y + 1) else some y) =
      some (if mp < 10 then y else y + 1) := by
  by_cases early : mp < 10
  · rw [if_pos early, if_pos early, if_neg (by omega)]
  · rw [if_neg early, if_neg early, if_pos (by omega)]
    exact checkedI64_fits (fitsI64_small small)

/-- Behind the first addition no step overflows. -/
theorem civilFromDays_steps (shift : z = days + 719468) (fits : FitsI64 z) (era_ : era = z / 146097)
    (doe_ : doe = z % 146097) (yoe_ : yoe = (doe - doe / 1460 + doe / 36524 - doe / 146096) / 365)
    (doy_ : doy = doe - (365 * yoe + yoe / 4 - yoe / 100)) (mp_ : mp = (5 * doy + 2) / 153)
    (inEra : 0 ≤ yoe ∧ yoe ≤ 399) (inYear : 0 ≤ doy ∧ doy ≤ 365) :
    civilFromDays checkedI64 days =
      some (if mp < 10 then yoe + era * 400 else yoe + era * 400 + 1,
        (if mp < 10 then mp + 3 else mp - 9).toNat, (doy - (153 * mp + 2) / 5 + 1).toNat) := by
  obtain ⟨march, february, least, most⟩ := marchMonth inYear.1 inYear.2
  rw [← mp_] at march february least most
  have front : 0 ≤ mp ∧ mp ≤ 11 := ⟨march, february⟩
  have inDay : 0 ≤ doe ∧ doe ≤ 146096 := by
    clear * - doe_
    omega
  have wide : -63132440000000 ≤ era ∧ era ≤ 63132440000000 := by
    clear * - fits era_
    unfold FitsI64 i64Min i64Max at fits
    omega
  have month : 0 ≤ (if mp < 10 then mp + 3 else mp - 9) ∧
      (if mp < 10 then mp + 3 else mp - 9) ≤ 4294967295 := by
    clear * - front
    omega
  have day : 0 ≤ doy - (153 * mp + 2) / 5 + 1 ∧ doy - (153 * mp + 2) / 5 + 1 ≤ 4294967295 := by
    clear * - least most
    omega
  have total : checkedI64 (days + 719468) = some z := by
    rw [← shift]
    exact checkedI64_fits fits
  obtain ⟨a, a_⟩ : ∃ a, a = doe - doe / 1460 + doe / 36524 - doe / 146096 := ⟨_, rfl⟩
  have shifted : 0 ≤ a ∧ a ≤ 146097 := by
    rw [a_]
    clear * - inDay
    omega
  have q1 : doe.tdiv 1460 = doe / 1460 := Int.tdiv_eq_ediv_of_nonneg inDay.1
  have q2 : doe.tdiv 36524 = doe / 36524 := Int.tdiv_eq_ediv_of_nonneg inDay.1
  have q3 : doe.tdiv 146096 = doe / 146096 := Int.tdiv_eq_ediv_of_nonneg inDay.1
  have q4 : yoe.tdiv 4 = yoe / 4 := Int.tdiv_eq_ediv_of_nonneg inEra.1
  have q5 : yoe.tdiv 100 = yoe / 100 := Int.tdiv_eq_ediv_of_nonneg inEra.1
  have q6 : a.tdiv 365 = yoe := by
    rw [yoe_, ← a_]
    exact Int.tdiv_eq_ediv_of_nonneg shifted.1
  have q7 : (5 * doy + 2).tdiv 153 = mp := by
    rw [mp_]
    exact Int.tdiv_eq_ediv_of_nonneg (by clear * - inYear; omega)
  have q8 : (153 * mp + 2).tdiv 5 = (153 * mp + 2) / 5 :=
    Int.tdiv_eq_ediv_of_nonneg (by clear * - front; omega)
  unfold civilFromDays
  refine goes_on total ?_
  rw [← era_, ← doe_]
  refine checkedI64_step (v := doe - doe / 1460) (by rw [q1]) (by clear * - inDay; omega) ?_
  refine checkedI64_step (v := doe - doe / 1460 + doe / 36524) (by rw [q2])
    (by clear * - inDay; omega) ?_
  refine checkedI64_step (v := a) (by rw [q3, a_]) (by clear * - shifted; omega) ?_
  rw [q6]
  refine checkedI64_step rfl (by clear * - wide; omega) ?_
  refine checkedI64_step rfl (by clear * - wide inEra; omega) ?_
  refine checkedI64_step rfl (by clear * - inEra; omega) ?_
  refine checkedI64_step (v := 365 * yoe + yoe / 4) (by rw [q4]) (by clear * - inEra; omega) ?_
  refine checkedI64_step (v := 365 * yoe + yoe / 4 - yoe / 100) (by rw [q5])
    (by clear * - inEra; omega) ?_
  refine checkedI64_step (v := doy) doy_.symm (by clear * - inYear; omega) ?_
  refine checkedI64_step rfl (by clear * - inYear; omega) ?_
  refine checkedI64_step rfl (by clear * - inYear; omega) ?_
  rw [q7]
  refine checkedI64_step rfl (by clear * - front; omega) ?_
  refine checkedI64_step rfl (by clear * - front; omega) ?_
  rw [q8]
  refine checkedI64_step rfl (by clear * - front inYear; omega) ?_
  refine checkedI64_step rfl (by clear * - front inYear; omega) ?_
  refine goes_on (checkedI64_month front) ?_
  rw [asU32_small month, asU32_small day]
  refine goes_on (checkedI64_year front (by clear * - wide inEra; omega)) ?_
  rfl

end

/-- The day count comes out as its date, where the first addition does not overflow. -/
theorem civilFromDays_fits {days : Int} (fits : FitsI64 (days + 719468)) : ∃ d : Date,
    d.number = days ∧ civilFromDays checkedI64 days = some (d.year, d.month, d.day) := by
  obtain ⟨z, shift⟩ : ∃ z, z = days + 719468 := ⟨_, rfl⟩
  rw [← shift] at fits
  obtain ⟨inEra, inYear, d, year, month, day, number⟩ :=
    exists_date (z := z) rfl rfl rfl rfl rfl
  refine ⟨d, ?_, ?_⟩
  · rw [number, shift, Int.add_sub_cancel]
  · rw [civilFromDays_steps shift fits rfl rfl rfl rfl rfl inEra inYear, year, month, day]

theorem civilFromDays_overflow {days : Int} (beyond : ¬ FitsI64 (days + 719468)) :
    civilFromDays checkedI64 days = none := by
  have stops : checkedI64 (days + 719468) = none := if_neg beyond
  unfold civilFromDays
  rw [stops]
  rfl

section

variable {M : Type → Type} [Monad M] (fit : Int → M Int)

/-- A number in at least so many characters, its sign among them. -/
def paddedInt (width : Nat) (n : Int) : List Char :=
  if n < 0 then '-' :: padded (width - 1) n.natAbs else padded width n.natAbs

def clockText (y : Int) (mo d : Nat) (h m s : Int) : String :=
  String.ofList (paddedInt 4 y ++ '-' :: (padded 2 mo ++ '-' :: (padded 2 d ++
    ' ' :: (paddedInt 2 h ++ ':' :: (paddedInt 2 m ++ ':' :: paddedInt 2 s)))))

def clock (tsUs : Int) : M String := do
  let secs := tsUs / 1000000
  let days := secs / 86400
  let tod := secs % 86400
  let (y, mo, d) ← civilFromDays fit days
  pure (clockText y mo d (tod.tdiv 3600) ((tod.tmod 3600).tdiv 60) (tod.tmod 60))

end

/-- A civil time to the second as a line of the tail has it. -/
def stamp (dt : DateTime) : String :=
  clockText dt.date.year dt.date.month dt.date.day dt.time.hour dt.time.minute dt.time.second

/-- The clock of every instant is its civil time to the second. -/
theorem clock_fits {tsUs : Int} (fits : FitsI64 tsUs) : ∃ dt : DateTime,
    dt.nanos = tsUs / 1000000 * 1000000000 ∧ clock checkedI64 tsUs = some (stamp dt) := by
  obtain ⟨secs, secs_⟩ : ∃ secs, secs = tsUs / 1000000 := ⟨_, rfl⟩
  obtain ⟨tod, tod_⟩ : ∃ tod, tod = secs % 86400 := ⟨_, rfl⟩
  have inDay : 0 ≤ tod ∧ tod ≤ 86399 := by omega
  have range : FitsI64 (secs / 86400 + 719468) := by
    unfold FitsI64 i64Min i64Max at *
    omega
  obtain ⟨d, number, civil⟩ := civilFromDays_fits range
  have hour : tod.tdiv 3600 = ((tod / 3600).toNat : Int) := by
    rw [Int.tdiv_eq_ediv_of_nonneg inDay.1, Int.toNat_of_nonneg (by omega)]
  have minute : (tod.tmod 3600).tdiv 60 = ((tod % 3600 / 60).toNat : Int) := by
    rw [Int.tmod_eq_emod_of_nonneg inDay.1, Int.tdiv_eq_ediv_of_nonneg (by omega),
      Int.toNat_of_nonneg (by omega)]
  have second : tod.tmod 60 = ((tod % 60).toNat : Int) := by
    rw [Int.tmod_eq_emod_of_nonneg inDay.1, Int.toNat_of_nonneg (by omega)]
  let time : TimeOfDay := ⟨(tod / 3600).toNat, (tod % 3600 / 60).toNat, (tod % 60).toNat, 0, by omega⟩
  refine ⟨⟨d, time⟩, ?_, ?_⟩
  · unfold DateTime.nanos TimeOfDay.nanos
    dsimp only [time]
    rw [number, ← secs_]
    omega
  · unfold clock
    dsimp only
    rw [← secs_, ← tod_]
    refine goes_on civil ?_
    rw [hour, minute, second]
    rfl

/-- The two conversions are inverse on every day count and date where neither overflows, and the
clock of every instant is that of its whole second. -/
theorem civil_conversions_inverse :
    (∀ days : Int, FitsI64 days →
      ((civilFromDays checkedI64 days).isSome ↔ days + 719468 ≤ i64Max) ∧
      ∀ y m d, civilFromDays checkedI64 days = some (y, m, d) →
        IsDate y m d ∧ daysFromCivil checkedI64 y m d = some days) ∧
    (∀ date : Date,
      ((daysFromCivil checkedI64 date.year date.month date.day).isSome ↔
        i64Min ≤ date.number ∧ date.number + 719468 ≤ i64Max) ∧
      ∀ days, daysFromCivil checkedI64 date.year date.month date.day = some days →
        days = date.number ∧
          civilFromDays checkedI64 days = some (date.year, date.month, date.day)) ∧
    ∀ tsUs : Int, FitsI64 tsUs → ∃ dt : DateTime,
      dt.nanos = tsUs / 1000000 * 1000000000 ∧ clock checkedI64 tsUs = some (stamp dt) := by
  have counted (date : Date) (days : Int) :
      daysFromCivil checkedI64 date.year date.month date.day = some days ↔
        date.number = days ∧ i64Min ≤ days ∧ days + 719468 ≤ i64Max :=
    daysFromCivil_checked date.months date.days
  refine ⟨fun days fits => ⟨?_, fun y m d shown => ?_⟩, fun date => ⟨?_, fun days shown => ?_⟩,
    fun tsUs fits => clock_fits fits⟩
  · constructor
    · intro some_
      by_contra beyond
      rw [civilFromDays_overflow fun whole => beyond whole.2] at some_
      cases some_
    · intro bound
      have whole : FitsI64 (days + 719468) := ⟨by have low := fits.1; omega, bound⟩
      obtain ⟨d, _, found⟩ := civilFromDays_fits whole
      rw [found]
      rfl
  · have whole : FitsI64 (days + 719468) := by
      by_contra beyond
      rw [civilFromDays_overflow beyond] at shown
      cases shown
    obtain ⟨date, number, found⟩ := civilFromDays_fits whole
    rw [found] at shown
    cases shown
    exact ⟨date.isDate, (counted date days).mpr ⟨number, fits.1, whole.2⟩⟩
  · constructor
    · intro some_
      obtain ⟨days, found⟩ := Option.isSome_iff_exists.mp some_
      obtain ⟨same, range⟩ := (counted date days).mp found
      rw [same]
      exact range
    · intro range
      rw [(counted date date.number).mpr ⟨rfl, range⟩]
      rfl
  · obtain ⟨same, low, high⟩ := (counted date days).mp shown
    have whole : FitsI64 (days + 719468) := ⟨by omega, high⟩
    obtain ⟨other, number, found⟩ := civilFromDays_fits whole
    have equal : other = date := Date.number_injective (number.trans same.symm)
    rw [equal] at found
    exact ⟨same.symm, found⟩

/-- The last day counts have dates whose years fit, and are too far for the first addition. -/
theorem last_day_counts_overflow : ∃ d : Date, d.number = i64Max ∧ FitsI64 d.year ∧
    civilFromDays checkedI64 i64Max = none ∧
    Id.run (civilFromDays (fun x => pure (wrapI64 x)) i64Max) ≠ (d.year, d.month, d.day) := by
  refine ⟨⟨25252734927768524, 7, 27, by decide⟩, by decide, ⟨by decide, by decide⟩, by decide,
    by decide⟩

end NetObserver
