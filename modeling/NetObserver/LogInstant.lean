import NetObserver.Calendar
import NetObserver.LogLine

/-! The instant of a log line, by a count of the days that is not the code's. -/

namespace NetObserver
namespace SingboxLog

open Machine Calendar

def FitsI64 (x : Int) : Prop := i64Min ≤ x ∧ x ≤ i64Max

theorem wrapI64_of_fits {x : Int} (fits : FitsI64 x) : wrapI64 x = x := by
  unfold FitsI64 i64Min i64Max at fits
  unfold wrapI64 i64Min
  omega

theorem checkedI64_eq_some {x v : Int} : checkedI64 x = some v ↔ FitsI64 x ∧ x = v := by
  unfold checkedI64 FitsI64
  split
  next fits => simp [fits]
  next => simp [*]

section

variable {α : Type} {f : Int → Option α} {v : α}

theorem checkedI64_bind {x : Int} :
    (checkedI64 x).bind f = some v ↔ FitsI64 x ∧ f x = some v := by
  unfold checkedI64 FitsI64
  split
  next fits => simp [fits]
  next => simp [*]

theorem checkedI64_bind_if {c : Prop} [Decidable c] {x y : Int} :
    (if c then checkedI64 x else pure y).bind f = some v ↔
      (c → FitsI64 x) ∧ f (if c then x else y) = some v := by
  split
  next holds => rw [checkedI64_bind, imp_iff_right holds]
  next fails => simp [fails]

theorem checkedI64_bind_unless {c : Prop} [Decidable c] {x y : Int} :
    (if c then pure y else checkedI64 x).bind f = some v ↔
      (¬ c → FitsI64 x) ∧ f (if c then y else x) = some v := by
  rw [← ite_not, checkedI64_bind_if, ite_not]

end

/-- An era is the quotient rounded down, for the years before 0 too. -/
theorem tdiv_era {y : Int} : (if y ≥ 0 then y else y - 399).tdiv 400 = y / 400 := by
  split
  next positive => exact Int.tdiv_eq_ediv_of_nonneg positive
  next negative =>
    have flip : (y - 399).tdiv 400 = -((399 - y).tdiv 400) := by
      rw [← Int.neg_tdiv]
      congr 1
      omega
    rw [flip, Int.tdiv_eq_ediv_of_nonneg (by omega)]
    omega

/-- The day number comes out where it and the number before its last subtraction fit. -/
theorem daysFromCivil_checked {y : Int} {m d : Nat} (months : 1 ≤ m ∧ m ≤ 12)
    (days : 1 ≤ d ∧ d ≤ 31) {v : Int} :
    daysFromCivil checkedI64 y m d = some v ↔
      dayNumber y m d = v ∧ i64Min ≤ v ∧ v + 719468 ≤ i64Max := by
  simp only [daysFromCivil, bind, checkedI64_bind, checkedI64_bind_if, checkedI64_bind_unless,
    checkedI64_eq_some, tdiv_era]
  generalize march : (if m ≤ 2 then y - 1 else y) = p
  have yoe : 0 ≤ p - p / 400 * 400 := by omega
  have quarters : (p - p / 400 * 400) / 4 = p / 4 - p / 400 * 100 := by omega
  have centuries : (p - p / 400 * 400) / 100 = p / 100 - p / 400 * 4 := by omega
  have start : (((153 * ((m + 9) % 12) + 2) / 5 : Nat) : Int) =
      (153 * ((m + 9) % 12 : Nat) + 2) / 5 := by omega
  rw [Int.tdiv_eq_ediv_of_nonneg yoe, Int.tdiv_eq_ediv_of_nonneg yoe,
    Int.tdiv_eq_ediv_of_nonneg (by omega), quarters, centuries]
  unfold dayNumber FitsI64 i64Min i64Max
  dsimp only
  rw [march, start]
  have low : 0 ≤ (153 * (((m + 9) % 12 : Nat) : Int) + 2) / 5 := by omega
  have high : (153 * (((m + 9) % 12 : Nat) : Int) + 2) / 5 ≤ 337 := by omega
  generalize (153 * (((m + 9) % 12 : Nat) : Int) + 2) / 5 = start at *
  constructor
  · omega
  · omega

theorem daysFromCivil_bind {α : Type} {f : Int → Option α} {w : α} {y : Int} {m d : Nat}
    (months : 1 ≤ m ∧ m ≤ 12) (days : 1 ≤ d ∧ d ≤ 31) :
    (daysFromCivil checkedI64 y m d).bind f = some w ↔
      (i64Min ≤ dayNumber y m d ∧ dayNumber y m d + 719468 ≤ i64Max) ∧
        f (dayNumber y m d) = some w := by
  rw [Option.bind_eq_some_iff]
  constructor
  · rintro ⟨v, counted, rest⟩
    obtain ⟨rfl, fits⟩ := (daysFromCivil_checked months days).mp counted
    exact ⟨fits, rest⟩
  · rintro ⟨fits, rest⟩
    exact ⟨_, (daysFromCivil_checked months days).mpr ⟨rfl, fits⟩, rest⟩

/-- Where a build that checks for overflow goes on, one that does not has the same value. -/
def Agree {α : Type} (checked : Option α) (wrapped : Id α) : Prop :=
  ∀ v, checked = some v → wrapped.run = v

namespace Agree

theorem pure_ {α : Type} (v : α) : Agree (pure v) (pure v) := by
  intro w same
  exact Option.some.inj same

theorem fit (x : Int) : Agree (checkedI64 x) (pure (wrapI64 x)) := by
  intro v checked
  obtain ⟨fits, rfl⟩ := checkedI64_eq_some.mp checked
  exact wrapI64_of_fits fits

theorem bind_ {α β : Type} {a : Option α} {b : Id α} {f : α → Option β} {g : α → Id β}
    (first : Agree a b) (then_ : ∀ v, Agree (f v) (g v)) : Agree (a >>= f) (b >>= g) := by
  intro w checked
  obtain ⟨v, have_, rest⟩ := Option.bind_eq_some_iff.mp checked
  have same : b.run = v := first v have_
  subst same
  exact then_ _ w rest

theorem daysFromCivil (y : Int) (m d : Nat) :
    Agree (daysFromCivil checkedI64 y m d)
      (SingboxLog.daysFromCivil (fun x => pure (wrapI64 x)) y m d) := by
  unfold SingboxLog.daysFromCivil
  repeat' first
    | with_reducible exact fit _
    | with_reducible exact pure_ _
    | with_reducible refine bind_ ?_ fun _ => ?_
    | split

theorem tsUs (o : Opening) :
    Agree (o.tsUs checkedI64) (o.tsUs fun x => pure (wrapI64 x)) := by
  unfold Opening.tsUs
  refine bind_ (daysFromCivil _ _ _) fun days => ?_
  repeat' first
    | with_reducible exact fit _
    | with_reducible refine bind_ ?_ fun _ => ?_

theorem parseLine (raw : List Char) :
    Agree (parseLineWith checkedI64 raw) (parseLineWith (fun x => pure (wrapI64 x)) raw) := by
  unfold parseLineWith
  split
  next => exact pure_ none
  next o behind _ => exact bind_ (tsUs o) fun _ => pure_ _

end Agree

theorem parseBody_tsUs {tsUs : Int} {level : Level} {rest : List Char} {line : LogLine}
    (parsed : parseBody tsUs level rest = some line) : line.tsUs = tsUs := by
  obtain ⟨rest, _, rfl⟩ := Option.map_eq_some_iff.mp parsed
  unfold parseMessage
  dsimp only
  split
  next => rfl
  next => rfl

theorem parseI64_nonneg {s : List Char} {v : Int} (signless : ∀ c ∈ s, c.isDigit = true)
    (parsed : parseI64 s = some v) : 0 ≤ v := by
  unfold parseI64 at parsed
  have positive : (splitSign s).1 = false := by
    unfold splitSign
    split
    next => exact absurd (signless '-' List.mem_cons_self) (by decide)
    next => rfl
    next => rfl
  simp only [positive, Bool.false_eq_true, if_false] at parsed
  split at parsed
  next => cases parsed
  next =>
    split at parsed
    next =>
      cases parsed
      exact Int.natCast_nonneg _
    next => cases parsed

theorem parseOffset_within {token : List Char} {secs : Int} (parsed : parseOffset token = some secs) :
    -86340 ≤ secs ∧ secs ≤ 86340 := by
  unfold parseOffset at parsed
  obtain ⟨⟨sign, digits⟩, signed, parsed⟩ := Option.bind_eq_some_iff.mp parsed
  have unit : sign = 1 ∨ sign = -1 := by
    unfold signOf at signed
    split at signed
    next =>
      cases signed
      exact .inl rfl
    next =>
      cases signed
      exact .inr rfl
    next => cases signed
  simp only at parsed
  split at parsed
  next => cases parsed
  next shape =>
    obtain ⟨hh, hours, parsed⟩ := Option.bind_eq_some_iff.mp parsed
    obtain ⟨mm, minutes, parsed⟩ := Option.bind_eq_some_iff.mp parsed
    rw [not_or, not_not, not_not] at shape
    have digit := List.all_eq_true.mp shape.2
    have hoursLow := parseI64_nonneg (fun c mem => digit c (List.mem_of_mem_take mem)) hours
    have minutesLow := parseI64_nonneg (fun c mem => digit c (List.mem_of_mem_drop mem)) minutes
    split at parsed
    next => cases parsed
    next =>
      cases parsed
      rcases unit with rfl | rfl
      · omega
      · omega

theorem parseOpening_offset {line behind : List Char} {o : Opening}
    (parsed : parseOpening line = some (o, behind)) :
    -86340 ≤ o.offsetSecs ∧ o.offsetSecs ≤ 86340 := by
  unfold parseOpening at parsed
  obtain ⟨secs, offset, parsed⟩ := Option.bind_eq_some_iff.mp parsed
  obtain ⟨_, _, parsed⟩ := Option.bind_eq_some_iff.mp parsed
  obtain ⟨_, _, parsed⟩ := Option.bind_eq_some_iff.mp parsed
  obtain ⟨_, _, parsed⟩ := Option.bind_eq_some_iff.mp parsed
  obtain ⟨_, _, parsed⟩ := Option.bind_eq_some_iff.mp parsed
  obtain ⟨_, _, parsed⟩ := Option.bind_eq_some_iff.mp parsed
  obtain ⟨_, _, parsed⟩ := Option.bind_eq_some_iff.mp parsed
  cases parsed
  exact parseOffset_within offset

section

/-! The days are counted by any function that is 0 on 1970-01-01 and grows by one from each date
to the next. -/

variable (count : Date → Int)

/-- A day behind the end of its month is counted on from the month's first. -/
def CivilDay.counted (c : CivilDay) : Int :=
  count (Date.first c.year c.month c.months.1 c.months.2) + (c.day - 1)

/-- The instant a line's opening names, in microseconds. -/
def Opening.instantUs (o : Opening) : Int :=
  (o.date.counted count * 86400 + o.time.hh * 3600 + o.time.mm * 60 + o.time.ss - o.offsetSecs) *
    1000000

/-- No operation overflows, and the line has the instant that its opening names. -/
def InstantRight (raw : List Char) : Prop :=
  (parseLineWith checkedI64 raw).isSome ∧
    ∀ line, parseLine raw = some line →
      ∃ o behind, parseOpening (lineText raw) = some (o, behind) ∧ line.tsUs = o.instantUs count

def InstantFits (raw : List Char) : Prop :=
  ∀ o behind, parseOpening (lineText raw) = some (o, behind) → FitsI64 (o.instantUs count)

end

section

variable {count : Date → Int} (zero : count Date.epoch = 0)
  (step : ∀ d : Date, count d.next = count d + 1)

include zero step

theorem CivilDay.counted_eq (c : CivilDay) : c.counted count = dayNumber c.year c.month c.day := by
  unfold CivilDay.counted
  rw [Date.number_unique zero step]
  unfold Date.number Date.first dayNumber
  dsimp only
  omega

theorem Opening.tsUs_checked {o : Opening} (offset : -86340 ≤ o.offsetSecs ∧ o.offsetSecs ≤ 86340)
    {v : Int} :
    o.tsUs checkedI64 = some v ↔ FitsI64 (o.instantUs count) ∧ o.instantUs count = v := by
  unfold Opening.tsUs Opening.instantUs
  rw [CivilDay.counted_eq zero step]
  simp only [bind, daysFromCivil_bind o.date.months o.date.days, checkedI64_bind,
    checkedI64_eq_some]
  have within := o.time.within
  unfold FitsI64 i64Min i64Max
  constructor
  · omega
  · omega

theorem instantRight_iff (raw : List Char) : InstantRight count raw ↔ InstantFits count raw := by
  unfold InstantRight InstantFits
  unfold parseLineWith
  split
  next unopened =>
    constructor
    · intro _ o behind opened
      rw [unopened] at opened
      cases opened
    · intro _
      refine ⟨rfl, fun line parsed => ?_⟩
      have silent : parseLine raw = none := by
        rw [parseLine, parseLineWith, unopened]
        rfl
      rw [silent] at parsed
      cases parsed
  next o behind opened =>
    have offset := parseOpening_offset opened
    constructor
    · rintro ⟨ends, -⟩ o' behind' opened'
      rw [opened] at opened'
      cases opened'
      obtain ⟨parsed, ended⟩ := Option.isSome_iff_exists.mp ends
      obtain ⟨tsUs, counted, -⟩ := Option.bind_eq_some_iff.mp ended
      exact ((Opening.tsUs_checked zero step offset).mp counted).1
    · intro fits
      have counted := (Opening.tsUs_checked zero step offset).mpr ⟨fits o behind opened, rfl⟩
      have whole : parseLineWith checkedI64 raw =
          some (parseBody (o.instantUs count) o.level (StdText.trimStart behind)) := by
        unfold parseLineWith
        rw [opened]
        exact Option.bind_eq_some_iff.mpr ⟨_, counted, rfl⟩
      have same : parseLine raw = parseBody (o.instantUs count) o.level (StdText.trimStart behind) :=
        Agree.parseLine raw _ whole
      refine ⟨?_, fun line parsed => ⟨o, behind, opened, parseBody_tsUs (same.symm.trans parsed)⟩⟩
      exact Option.isSome_iff_exists.mpr ⟨_, Option.bind_eq_some_iff.mpr ⟨_, counted, rfl⟩⟩

/-- A line's time is the true instant, and no operation on the way to it overflows, exactly where
that instant in microseconds fits 64 bits. -/
theorem log_instants_exact_iff :
    (∀ d : Date, daysFromCivil checkedI64 d.year d.month d.day = some (count d) ↔
      i64Min ≤ count d ∧ count d + 719468 ≤ i64Max) ∧
    ∀ raw, InstantRight count raw ↔ InstantFits count raw := by
  refine ⟨fun d => ?_, instantRight_iff zero step⟩
  rw [daysFromCivil_checked d.months d.days, Date.number_unique zero step d]
  exact and_iff_right rfl

end

theorem log_instants_exact_iff_number :
    (∀ d : Date, daysFromCivil checkedI64 d.year d.month d.day = some d.number ↔
      i64Min ≤ d.number ∧ d.number + 719468 ≤ i64Max) ∧
    ∀ raw, InstantRight Date.number raw ↔ InstantFits Date.number raw :=
  log_instants_exact_iff dayNumber_epoch Date.number_next

/-- A line of the year 300000 stops a build that checks for overflow, and has another instant in
one that does not. -/
theorem far_year_overflows :
    parseLineWith checkedI64 "+0000 300000-01-01 00:00:00 INFO x: y".toList = none ∧
    ¬ InstantRight Date.number "+0000 300000-01-01 00:00:00 INFO x: y".toList ∧
    (parseLine "+0000 300000-01-01 00:00:00 INFO x: y".toList).map LogLine.tsUs =
      some (-9041825692909551616) := by
  have stopped : parseLineWith checkedI64 "+0000 300000-01-01 00:00:00 INFO x: y".toList = none := by
    decide
  refine ⟨stopped, fun right => ?_, by decide⟩
  have ends := right.1
  rw [stopped] at ends
  cases ends

end SingboxLog
end NetObserver
