import NetObserver.Relational

/-! Rows in time cut into islands: a new one begins where the row before is too far away. -/

namespace Islands

open Relational

variable {α : Type*} (time : α → Int) (gap : Int) (rows : List α)

/-- The row begins an island. -/
def starts (a : α) : Bool := (newestBefore time rows (time a)).all fun p => gap < time a - time p

/-- The running sum of the beginnings, up to and with the row's own. -/
def number (a : α) : Nat := rows.countP fun b => starts time gap rows b && decide (time b ≤ time a)

/-- Two rows between which no other stands. -/
structure Consecutive (c d : α) : Prop where
  first : c ∈ rows
  second : d ∈ rows
  order : time c < time d
  between : ∀ x ∈ rows, ¬ (time c < time x ∧ time x < time d)

variable {time gap rows} {a b c : α}

theorem countP_eq_iff {p q : α → Bool} (sub : ∀ x, p x = true → q x = true) (xs : List α) :
    xs.countP p = xs.countP q ↔ ∀ x ∈ xs, q x = true → p x = true := by
  induction xs with
  | nil => simp
  | cons x xs ih =>
    have less : xs.countP p ≤ xs.countP q := List.countP_mono_left fun x _ => sub x
    rw [List.countP_cons, List.countP_cons, List.forall_mem_cons, ← ih]
    have here := sub x
    by_cases left : p x = true
    · rw [if_pos left, if_pos (here left)]
      simp only [left, implies_true, true_and]
      omega
    · by_cases right : q x = true
      · rw [if_neg left, if_pos right]
        simp only [left, right, forall_const, Bool.false_eq_true, false_and, iff_false]
        omega
      · rw [if_neg left, if_neg right]
        simp only [right, Bool.false_eq_true, false_implies, true_and]
        omega

/-- Two rows are of one island exactly when none begins behind the first, up to the second. -/
theorem number_eq_iff (order : time a ≤ time b) :
    number time gap rows a = number time gap rows b ↔
      ∀ u ∈ rows, time a < time u → time u ≤ time b → starts time gap rows u = false := by
  have sub : ∀ u, (starts time gap rows u && decide (time u ≤ time a)) = true →
      (starts time gap rows u && decide (time u ≤ time b)) = true := by
    intro u
    simp only [Bool.and_eq_true, decide_eq_true_eq]
    intro both
    exact ⟨both.1, le_trans both.2 order⟩
  unfold number
  rw [countP_eq_iff sub]
  constructor
  · intro none u mem after before
    by_contra begins
    have both := none u mem (by simp [Bool.eq_true_of_not_eq_false begins, before])
    have here := of_decide_eq_true (Bool.and_eq_true_iff.mp both).2
    omega
  · intro none u mem both
    obtain ⟨begins, before⟩ := Bool.and_eq_true_iff.mp both
    by_contra other
    have after : time a < time u := by
      by_contra late
      exact other (Bool.and_eq_true_iff.mpr ⟨begins, decide_eq_true (by omega)⟩)
    rw [none u mem after (of_decide_eq_true before)] at begins
    cases begins

theorem number_eq_of_between (first : time a ≤ time c) (second : time c ≤ time b)
    (same : number time gap rows a = number time gap rows b) :
    number time gap rows c = number time gap rows a := by
  refine ((number_eq_iff first).mpr fun u mem after before => ?_).symm
  exact (number_eq_iff (le_trans first second)).mp same u mem after (le_trans before second)

/-- Two rows are of one island exactly when no more than the gap lies between consecutive rows from
one to the other. -/
theorem number_eq_iff_close (distinct : (rows.map time).Nodup) (mem : a ∈ rows)
    (order : time a ≤ time b) :
    number time gap rows a = number time gap rows b ↔
      ∀ c d, Consecutive time rows c d → time a ≤ time c → time d ≤ time b →
        time d - time c ≤ gap := by
  rw [number_eq_iff order]
  constructor
  · intro none c d consecutive first last
    have before := newestBefore_of_consecutive distinct consecutive.first consecutive.order
      consecutive.between
    have quiet := none d consecutive.second (lt_of_le_of_lt first consecutive.order) last
    unfold starts at quiet
    rw [before, Option.all_some, decide_eq_false_iff_not] at quiet
    omega
  · intro close u held after last
    obtain ⟨c, found⟩ := newestBefore_some_of_mem mem after
    obtain ⟨here, before⟩ := newestBefore_mem found
    have consecutive : Consecutive time rows c u := by
      refine ⟨here, held, before, fun x other inside => ?_⟩
      have newest := newestBefore_newest found other inside.2
      omega
    have first := newestBefore_newest found mem after
    have bound := close c u consecutive first last
    unfold starts
    rw [found, Option.all_some, decide_eq_false_iff_not]
    omega

end Islands
