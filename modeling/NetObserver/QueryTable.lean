import Mathlib.Data.List.MinMax
import NetObserver.IncidentId

/-! The tables a query answers with: every cell text, the times in them epoch microseconds. -/

namespace NetObserver

open Machine

structure QueryTable where
  columns : List String
  rows : List (List String)
deriving DecidableEq

theorem parseI64_minus {digits : List Char} (some_ : digits ≠ [])
    (decimal : ∀ c ∈ digits, c.isDigit = true)
    (range : i64Min ≤ -(Nat.ofDigitChars 10 digits 0 : Int)) :
    parseI64 ('-' :: digits) = some (-(Nat.ofDigitChars 10 digits 0 : Int)) := by
  have high : -(Nat.ofDigitChars 10 digits 0 : Int) ≤ i64Max := by
    have nonneg := Int.natCast_nonneg (Nat.ofDigitChars 10 digits 0)
    simp only [i64Max]
    omega
  have all : digits.all Char.isDigit = true := List.all_eq_true.mpr decimal
  rw [parseI64, splitSign]
  simp only [all, List.isEmpty_eq_false_iff.mpr some_, Bool.not_true, Bool.or_false,
    Bool.false_eq_true, if_false, if_true]
  rw [if_pos ⟨range, high⟩]

/-- A time is read back from its own rendering. -/
theorem parseI64_toString {t : Int} (low : i64Min ≤ t) (high : t ≤ i64Max) :
    parseI64 (toString t).toList = some t := by
  have decimal (n : Nat) : ∀ c ∈ Nat.toDigits 10 n, c.isDigit = true :=
    fun c mem => Nat.isDigit_of_mem_toDigits (by omega) (by omega) mem
  have value (n : Nat) : Nat.ofDigitChars 10 (Nat.toDigits 10 n) 0 = n :=
    Nat.ofDigitChars_ten_toDigits
  rw [Int.toString_eq_repr, Int.repr_eq_if]
  by_cases positive : 0 ≤ t
  · have same : (t.toNat : Int) = t := Int.toNat_of_nonneg positive
    rw [if_pos positive, Nat.toList_repr,
      parseI64_digits Nat.toDigits_ne_nil (decimal _) (by rw [value]; omega), value, same]
  · have same : -((-t).toNat : Int) = t := by omega
    rw [if_neg positive, String.toList_append, Nat.toList_repr]
    have parsed := parseI64_minus Nat.toDigits_ne_nil (decimal (-t).toNat)
      (by rw [value]; omega)
    rw [value, same] at parsed
    exact parsed

namespace QueryTable

/-- The cell of a row in the column of that name. -/
def cell (t : QueryTable) (column : String) (row : List String) : Option String :=
  (t.columns.idxOf? column).bind (row[·]?)

def lastSeen (col : Nat) (row : List String) : Option Int := row[col]?.bind fun text => parseI64 text.toList

/-- The rows that share the newest `last_seen_us`; the table as it is where there is none. -/
def keepLastRun (t : QueryTable) : QueryTable :=
  match t.columns.idxOf? "last_seen_us" with
  | none => t
  | some col =>
    match (t.rows.filterMap (lastSeen col)).max? with
    | none => t
    | some newest => { t with rows := t.rows.filter fun row => lastSeen col row == some newest }

section

variable {α : Type*} {columns : List String} {col : Nat} {rs : List α} {render : α → List String}

/-- Where every row tells its time, the newest of them are kept. -/
theorem keepLastRun_rows (time : α → Int) (stamps : columns.idxOf? "last_seen_us" = some col)
    (told : ∀ r ∈ rs, lastSeen col (render r) = some (time r)) :
    (keepLastRun ⟨columns, rs.map render⟩).rows =
      (rs.filter fun r => decide (∀ s ∈ rs, time s ≤ time r)).map render := by
  have times : (rs.map render).filterMap (lastSeen col) = rs.map time := by
    rw [List.filterMap_map, ← List.filterMap_eq_map]
    exact List.filterMap_congr fun r listed => told r listed
  unfold keepLastRun
  simp only [stamps, times]
  cases newest : (rs.map time).max? with
  | none =>
    have none_left : rs = [] := List.map_eq_nil_iff.mp (List.max?_eq_none_iff.mp newest)
    rw [none_left]
    rfl
  | some t =>
    obtain ⟨mem, bound⟩ := List.max?_eq_some_iff.mp newest
    have most : ∀ s ∈ rs, time s ≤ t := fun s listed => bound _ (List.mem_map_of_mem listed)
    dsimp only
    rw [List.filter_map]
    congr 1
    apply List.filter_congr
    intro r held
    rw [Function.comp_apply, told r held]
    rw [Bool.eq_iff_iff, beq_iff_eq, decide_eq_true_eq, Option.some.injEq]
    constructor
    · intro last s other
      rw [last]
      exact most s other
    · intro newer
      obtain ⟨s, other, rfl⟩ := List.mem_map.mp mem
      exact Int.le_antisymm (most r held) (newer s other)

theorem keepLastRun_map (time : α → Int) (stamps : columns.idxOf? "last_seen_us" = some col)
    (told : ∀ r ∈ rs, lastSeen col (render r) = some (time r)) {row : List String} :
    row ∈ (keepLastRun ⟨columns, rs.map render⟩).rows ↔
      ∃ r ∈ rs, render r = row ∧ ∀ s ∈ rs, time s ≤ time r := by
  rw [keepLastRun_rows time stamps told]
  simp only [List.mem_map, List.mem_filter, decide_eq_true_eq]
  constructor
  · rintro ⟨r, ⟨held, newer⟩, same⟩
    exact ⟨r, held, same, newer⟩
  · rintro ⟨r, held, same, newer⟩
    exact ⟨r, ⟨held, newer⟩, same⟩

/-- A table with a row is not emptied. -/
theorem exists_newest (time : α → Int) (some_ : rs ≠ []) :
    ∃ r ∈ rs, ∀ s ∈ rs, time s ≤ time r := by
  cases newest : (rs.map time).max? with
  | none => exact absurd (List.map_eq_nil_iff.mp (List.max?_eq_none_iff.mp newest)) some_
  | some t =>
    obtain ⟨mem, bound⟩ := List.max?_eq_some_iff.mp newest
    obtain ⟨r, held, rfl⟩ := List.mem_map.mp mem
    exact ⟨r, held, fun s other => bound _ (List.mem_map_of_mem other)⟩

end

end QueryTable

end NetObserver
