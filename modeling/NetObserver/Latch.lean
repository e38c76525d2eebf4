import Mathlib.Data.List.Basic

/-! A latch among threads: at most one of them holds it, and it is set exactly while one does. -/

variable {α : Type*}

structure Latched (holds : α → Bool) (running : Bool) (threads : List α) : Prop where
  held : running = true → ∃ p ∈ threads, holds p = true
  free : running = false → ∀ p ∈ threads, holds p = false
  single : ∀ (i j : Nat) (p q : α), threads[i]? = some p → threads[j]? = some q → holds p = true →
    holds q = true → i = j

namespace Latched

variable {holds : α → Bool} {running : Bool} {threads : List α} {i : Nat} {p q : α}

theorem nil : Latched holds false [] := by
  refine ⟨fun claimed => (by cases claimed), fun _ p mem => (by cases mem), ?_⟩
  intro i j p q here
  cases here

/-- A thread that is not at the position of the holder holds nothing. -/
theorem others (latched : Latched holds running threads) (here : threads[i]? = some p)
    (holder : holds p = true) {j : Nat} (there : threads[j]? = some q) (apart : i ≠ j) :
    holds q = false := by
  cases other : holds q with
  | false => rfl
  | true => exact absurd (latched.single i j p q here there holder other) apart

theorem push (latched : Latched holds running threads) (idle : holds p = false) :
    Latched holds running (threads ++ [p]) := by
  obtain ⟨held, free, single⟩ := latched
  have old {j : Nat} {r : α} (there : (threads ++ [p])[j]? = some r)
      (holder : holds r = true) : threads[j]? = some r := by
    rw [List.getElem?_append] at there
    split at there
    next => exact there
    next =>
      rw [List.mem_singleton.mp (List.mem_of_getElem? there), idle] at holder
      cases holder
  refine ⟨fun claimed => ?_, fun released r mem => ?_, fun i j q r atI atJ holdsQ holdsR => ?_⟩
  · obtain ⟨q, mem, holder⟩ := held claimed
    exact ⟨q, List.mem_append_left _ mem, holder⟩
  · rcases List.mem_append.mp mem with before | new
    · exact free released r before
    · rw [List.mem_singleton.mp new]
      exact idle
  · exact single i j q r (old atI holdsQ) (old atJ holdsR) holdsQ holdsR

/-- A thread moves on and keeps what it holds. -/
theorem move (latched : Latched holds running threads) (here : threads[i]? = some p)
    (same : holds q = holds p) : Latched holds running (threads.set i q) := by
  obtain ⟨held, free, single⟩ := latched
  obtain ⟨inside, _⟩ := List.getElem?_eq_some_iff.mp here
  have old {j : Nat} {r : α} (there : (threads.set i q)[j]? = some r)
      (holder : holds r = true) : ∃ r', threads[j]? = some r' ∧ holds r' = true := by
    rw [List.getElem?_set] at there
    split at there
    next atI =>
      subst atI
      rw [← Option.some.inj there, same] at holder
      exact ⟨p, here, holder⟩
    next => exact ⟨r, there, holder⟩
  refine ⟨fun claimed => ?_, fun released r mem => ?_, fun a b r s atA atB holdsR holdsS => ?_⟩
  · obtain ⟨r, mem, holder⟩ := held claimed
    obtain ⟨j, there⟩ := List.mem_iff_getElem?.mp mem
    by_cases atI : i = j
    · subst atI
      have itself : r = p := Option.some.inj (there.symm.trans here)
      subst itself
      exact ⟨q, List.mem_set inside q, same.trans holder⟩
    · exact ⟨r, List.mem_of_getElem? ((List.getElem?_set_ne atI).trans there), holder⟩
  · rcases List.mem_or_eq_of_mem_set mem with before | rfl
    · exact free released r before
    · exact same.trans (free released p (List.mem_of_getElem? here))
  · obtain ⟨r', atA', holder⟩ := old atA holdsR
    obtain ⟨s', atB', holder'⟩ := old atB holdsS
    exact single a b r' s' atA' atB' holder holder'

theorem claim (latched : Latched holds false threads) (here : threads[i]? = some p)
    (holder : holds q = true) : Latched holds true (threads.set i q) := by
  obtain ⟨inside, _⟩ := List.getElem?_eq_some_iff.mp here
  have only {j : Nat} {r : α} (there : (threads.set i q)[j]? = some r)
      (other : holds r = true) : i = j := by
    by_contra apart
    rw [List.getElem?_set_ne apart] at there
    rw [latched.free rfl r (List.mem_of_getElem? there)] at other
    cases other
  refine ⟨fun _ => ⟨q, List.mem_set inside q, holder⟩, fun released => (by cases released), ?_⟩
  intro a b r s atA atB holdsR holdsS
  rw [← only atA holdsR, ← only atB holdsS]

theorem release (latched : Latched holds running threads) (here : threads[i]? = some p)
    (holder : holds p = true) (idle : holds q = false) : Latched holds false (threads.set i q) := by
  obtain ⟨inside, _⟩ := List.getElem?_eq_some_iff.mp here
  have none_ : ∀ r ∈ threads.set i q, holds r = false := by
    intro r mem
    obtain ⟨j, there⟩ := List.mem_iff_getElem?.mp mem
    by_cases atI : i = j
    · subst atI
      rw [List.getElem?_set_self inside] at there
      rw [← Option.some.inj there]
      exact idle
    · rw [List.getElem?_set_ne atI] at there
      exact latched.others here holder there atI
  refine ⟨fun claimed => (by cases claimed), fun _ => none_, fun a b r s atA _ holdsR _ => ?_⟩
  rw [none_ r (List.mem_of_getElem? atA)] at holdsR
  cases holdsR

end Latched

