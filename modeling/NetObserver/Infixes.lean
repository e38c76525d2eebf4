import Mathlib.Data.List.Infix

/-! A text in a longer one, and where the parts of the longer one meet. -/

namespace Infixes

variable {α : Type} {needle a b : List α}

/-- What lacks an element is wholly on one side of it. -/
theorem infix_append_cons_iff {c : α} (free : c ∉ needle) :
    needle <:+: a ++ c :: b ↔ needle <:+: a ∨ needle <:+: b := by
  constructor
  · intro held
    rw [List.infix_append_iff] at held
    rcases held with inA | held | ⟨front, back, rfl, suffix, initial⟩
    · exact Or.inl inA
    · rw [List.infix_cons_iff] at held
      rcases held with initial | inB
      · cases needle with
        | nil => exact Or.inl (List.nil_infix)
        | cons d needle =>
          have same := (List.cons_prefix_cons.mp initial).1
          exact absurd (same ▸ List.mem_cons_self) free
      · exact Or.inr inB
    · cases back with
      | nil => exact Or.inl (by rw [List.append_nil]; exact suffix.isInfix)
      | cons d back =>
        have same := (List.cons_prefix_cons.mp initial).1
        exact absurd (List.mem_append_right front (same ▸ List.mem_cons_self)) free
  · rintro (inA | inB)
    · exact inA.trans (List.infix_append' [] a (c :: b))
    · exact inB.trans (List.infix_append' (a ++ [c]) b [] |>.trans (by simp))

/-- What cannot reach into the second part, and is not in it, is in the first. -/
theorem infix_append_left_iff (apart : ∀ back ∈ needle.tails, back ≠ [] → ¬ back <+: b)
    (absent : ¬ needle <:+: b) : needle <:+: a ++ b ↔ needle <:+: a := by
  constructor
  · intro held
    rw [List.infix_append_iff] at held
    rcases held with inA | inB | ⟨front, back, rfl, suffix, initial⟩
    · exact inA
    · exact absurd inB absent
    · have mem : back ∈ (front ++ back).tails := by
        rw [List.mem_tails]
        exact List.suffix_append front back
      have none_ : back = [] := by
        by_contra some_
        exact apart back mem some_ initial
      subst none_
      rw [List.append_nil]
      exact suffix.isInfix
  · intro held
    exact held.trans (List.infix_append' [] a b)

/-- What does not begin in the first part is in the second. -/
theorem infix_append_right_iff {c : α} (free : c ∉ a) :
    c :: needle <:+: a ++ b ↔ c :: needle <:+: b := by
  constructor
  · intro held
    induction a with
    | nil => exact held
    | cons d a ih =>
      rw [List.mem_cons, not_or] at free
      rw [List.cons_append, List.infix_cons_iff] at held
      rcases held with initial | later
      · exact absurd (List.cons_prefix_cons.mp initial).1 free.1
      · exact ih free.2 later
  · intro held
    exact held.trans (List.suffix_append a b).isInfix

/-- What has no element of the middle is wholly on one side of it. -/
theorem infix_append_free_iff {mid : List α} (some_ : mid ≠ []) (free : ∀ x ∈ mid, x ∉ needle) :
    needle <:+: a ++ (mid ++ b) ↔ needle <:+: a ∨ needle <:+: b := by
  cases mid with
  | nil => exact absurd rfl some_
  | cons c rest =>
    rw [List.cons_append, infix_append_cons_iff (free c List.mem_cons_self)]
    cases needle with
    | nil => exact or_congr Iff.rfl (iff_of_true List.nil_infix List.nil_infix)
    | cons d needle =>
      have apart : d ∉ rest := by
        intro mem
        exact free d (List.mem_cons_of_mem c mem) List.mem_cons_self
      exact or_congr Iff.rfl (infix_append_right_iff apart)

/-- What cannot reach back into the first part, and is not in it, is in the second. -/
theorem infix_append_apart_iff (apart : ∀ front ∈ needle.inits, front ≠ [] → ¬ front <:+ a)
    (absent : ¬ needle <:+: a) : needle <:+: a ++ b ↔ needle <:+: b := by
  constructor
  · intro held
    rw [List.infix_append_iff] at held
    rcases held with inA | inB | ⟨front, back, rfl, suffix, initial⟩
    · exact absurd inA absent
    · exact inB
    · have mem : front ∈ (front ++ back).inits := by
        rw [List.mem_inits]
        exact List.prefix_append front back
      have none_ : front = [] := by
        by_contra some_
        exact apart front mem some_ suffix
      subst none_
      exact initial.isInfix
  · intro held
    exact held.trans (List.suffix_append a b).isInfix

end Infixes
