import Mathlib.Data.List.Basic

/-! A first-in first-out buffer of bounded length: a push past the bound evicts the oldest. -/

/-- The items are kept oldest first. -/
structure BoundedBuffer (α : Type*) where
  cap : Nat
  items : List α
  bounded : items.length ≤ cap

namespace BoundedBuffer

variable {α : Type*}

def evict (cap : Nat) : List α → List α
  | [] => []
  | x :: xs => if cap < (x :: xs).length then evict cap xs else x :: xs

theorem evict_eq_drop (cap : Nat) (xs : List α) : evict cap xs = xs.drop (xs.length - cap) := by
  induction xs with
  | nil => exact List.drop_nil.symm
  | cons x xs ih =>
    unfold evict
    by_cases full : cap < (x :: xs).length
    · rw [if_pos full, ih]
      have count : (x :: xs).length - cap = (xs.length - cap) + 1 := by
        simp only [List.length_cons] at full ⊢
        omega
      rw [count, List.drop_succ_cons]
    · rw [if_neg full, Nat.sub_eq_zero_of_le (Nat.le_of_not_lt full), List.drop_zero]

theorem length_evict_le (cap : Nat) (xs : List α) : (evict cap xs).length ≤ cap := by
  rw [evict_eq_drop, List.length_drop]
  omega

theorem evict_suffix (cap : Nat) (xs : List α) : evict cap xs <:+ xs := by
  rw [evict_eq_drop]
  exact List.drop_suffix _ _

/-- Evicting before more items arrive changes nothing of what is kept after they did. -/
theorem evict_evict_append (cap : Nat) (xs ys : List α) :
    evict cap (evict cap xs ++ ys) = evict cap (xs ++ ys) := by
  rw [evict_eq_drop cap xs, evict_eq_drop, evict_eq_drop]
  by_cases short : xs.length ≤ cap
  · rw [Nat.sub_eq_zero_of_le short, List.drop_zero]
  · have front : xs.length - cap ≤ xs.length := Nat.sub_le _ _
    rw [← List.drop_append_of_le_length front, List.drop_drop]
    congr 1
    simp only [List.length_drop, List.length_append]
    omega

def empty (cap : Nat) : BoundedBuffer α := ⟨cap, [], Nat.zero_le _⟩

def push (b : BoundedBuffer α) (a : α) : BoundedBuffer α :=
  ⟨b.cap, evict b.cap (b.items ++ [a]), length_evict_le _ _⟩

def clear (b : BoundedBuffer α) : BoundedBuffer α := empty b.cap

@[simp] theorem empty_cap (cap : Nat) : (empty cap : BoundedBuffer α).cap = cap := rfl

@[simp] theorem empty_items (cap : Nat) : (empty cap : BoundedBuffer α).items = [] := rfl

@[simp] theorem push_cap (b : BoundedBuffer α) (a : α) : (b.push a).cap = b.cap := rfl

@[simp] theorem clear_cap (b : BoundedBuffer α) : b.clear.cap = b.cap := rfl

@[simp] theorem clear_items (b : BoundedBuffer α) : b.clear.items = [] := rfl

theorem mem_push {b : BoundedBuffer α} {a x : α} (kept : x ∈ (b.push a).items) :
    x ∈ b.items ∨ x = a := by
  have old := (evict_suffix b.cap (b.items ++ [a])).subset kept
  rcases List.mem_append.mp old with before | new
  · exact .inl before
  · exact .inr (List.mem_singleton.mp new)

end BoundedBuffer
