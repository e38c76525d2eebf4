import Mathlib.Data.List.Basic

/-! Slots counted among threads: a counter that tells how many of them hold one. -/

variable {α : Type*}

/-- The counter stands at the number of holders. -/
def Tallied (holds : α → Bool) (n : Nat) (threads : List α) : Prop := threads.countP holds = n

namespace Tallied

variable {holds : α → Bool} {n : Nat} {threads : List α} {i : Nat} {p q : α}

theorem nil : Tallied holds 0 [] := rfl

theorem push (tallied : Tallied holds n threads) (p : α) :
    Tallied holds (n + (holds p).toNat) (threads ++ [p]) := by
  unfold Tallied at tallied ⊢
  rw [List.countP_append, tallied, List.countP_singleton]
  cases holds p <;> rfl

/-- A thread takes the place of another: the counter moves by what the two hold. -/
theorem replace (tallied : Tallied holds n threads) (here : threads[i]? = some p) (q : α) :
    ∃ m, Tallied holds m (threads.set i q) ∧ m + (holds p).toNat = n + (holds q).toNat := by
  unfold Tallied at tallied
  obtain ⟨inside, rfl⟩ := List.getElem?_eq_some_iff.mp here
  refine ⟨_, rfl, ?_⟩
  have counted : (holds threads[i]).toNat ≤ threads.countP holds := by
    cases holder : holds threads[i] with
    | false => exact Nat.zero_le _
    | true => exact List.countP_pos_iff.mpr ⟨_, List.getElem_mem inside, holder⟩
  rw [List.countP_set inside, tallied]
  rw [tallied] at counted
  cases holder : holds threads[i] <;> cases next : holds q <;> simp [holder] at counted ⊢ <;> omega

theorem take (tallied : Tallied holds n threads) (here : threads[i]? = some p)
    (free : holds p = false) (holder : holds q = true) :
    Tallied holds (n + 1) (threads.set i q) := by
  obtain ⟨m, next, moved⟩ := tallied.replace here q
  rw [free, holder] at moved
  have same : m = n + 1 := by simpa using moved
  exact same ▸ next

theorem give (tallied : Tallied holds n threads) (here : threads[i]? = some p)
    (holder : holds p = true) (free : holds q = false) :
    Tallied holds (n - 1) (threads.set i q) := by
  obtain ⟨m, next, moved⟩ := tallied.replace here q
  rw [free, holder] at moved
  have same : m = n - 1 := by
    simp at moved
    omega
  exact same ▸ next

theorem keep (tallied : Tallied holds n threads) (here : threads[i]? = some p)
    (same : holds q = holds p) : Tallied holds n (threads.set i q) := by
  obtain ⟨m, next, moved⟩ := tallied.replace here q
  rw [same] at moved
  have unmoved : m = n := Nat.add_right_cancel moved
  exact unmoved ▸ next

theorem holder (tallied : Tallied holds n threads) (here : threads[i]? = some p)
    (held : holds p = true) : 0 < n := by
  unfold Tallied at tallied
  rw [← tallied]
  exact List.countP_pos_iff.mpr ⟨p, List.mem_of_getElem? here, held⟩

/-- The holders of one slot all hold another: there are no more of them. -/
theorem le_of_imp {holds' : α → Bool} {m : Nat} (tallied : Tallied holds n threads)
    (wider : Tallied holds' m threads) (imp : ∀ p, holds p = true → holds' p = true) : n ≤ m := by
  unfold Tallied at tallied wider
  rw [← tallied, ← wider]
  exact List.countP_mono_left fun p _ held => imp p held

end Tallied
