import Mathlib.Data.Int.ConditionallyCompleteOrder
import Mathlib.Data.Int.Interval
import Mathlib.Data.List.Pairwise
import Mathlib.Order.ConditionallyCompleteLattice.Basic
import Mathlib.Tactic.Tauto

/-! Half-open stretches of time, some of them never closed. -/

/-- From `lower` up to but without `upper`, or on without end. -/
structure HalfOpen where
  lower : Int
  upper : Option Int
deriving DecidableEq

namespace HalfOpen

def Contains (s : HalfOpen) (u : Int) : Prop := s.lower ≤ u ∧ ∀ c, s.upper = some c → u < c

instance (s : HalfOpen) (u : Int) : Decidable (s.Contains u) :=
  decidable_of_iff (s.lower ≤ u ∧ s.upper.all (fun c => u < c) = true) <| by
    unfold Contains
    cases s.upper <;> simp

def Apart (s t : HalfOpen) : Prop := ∀ u, ¬ (s.Contains u ∧ t.Contains u)

/-- How much of the stretch from `lo` up to `hi` lies in it. -/
def overlap (lo hi : Int) (s : HalfOpen) : Int :=
  max 0 (min (s.upper.getD hi) hi - max s.lower lo)

theorem overlap_eq_card (lo hi : Int) (s : HalfOpen) :
    s.overlap lo hi = ((Finset.Ico lo hi).filter s.Contains).card := by
  have part : (Finset.Ico lo hi).filter s.Contains =
      Finset.Ico (max s.lower lo) (min (s.upper.getD hi) hi) := by
    ext u
    simp only [Finset.mem_filter, Finset.mem_Ico, Contains]
    cases s.upper with
    | none =>
      simp only [reduceCtorEq, false_implies, implies_true, and_true, Option.getD_none, min_self]
      omega
    | some c =>
      simp only [Option.some.injEq, forall_eq', Option.getD_some]
      omega
  rw [part, Int.card_Ico, overlap]
  omega

/-- Of stretches no two of which meet, the overlaps add up to what they cover together. -/
theorem sum_overlap (lo hi : Int) {ss : List HalfOpen} (apart : ss.Pairwise Apart) :
    (ss.map (overlap lo hi)).sum =
      ((Finset.Ico lo hi).filter fun u => ∃ s ∈ ss, s.Contains u).card := by
  induction ss with
  | nil => simp
  | cons s ss ih =>
    obtain ⟨first, rest⟩ := List.pairwise_cons.mp apart
    have split : (Finset.Ico lo hi).filter (fun u => ∃ t ∈ s :: ss, t.Contains u) =
        (Finset.Ico lo hi).filter s.Contains ∪
          (Finset.Ico lo hi).filter (fun u => ∃ t ∈ ss, t.Contains u) := by
      ext u
      simp only [Finset.mem_filter, Finset.mem_union, List.mem_cons, exists_eq_or_imp]
      tauto
    have disjoint : Disjoint ((Finset.Ico lo hi).filter s.Contains)
        ((Finset.Ico lo hi).filter fun u => ∃ t ∈ ss, t.Contains u) := by
      refine Finset.disjoint_left.mpr fun u here there => ?_
      obtain ⟨t, mem, inside⟩ := (Finset.mem_filter.mp there).2
      exact first t mem u ⟨(Finset.mem_filter.mp here).2, inside⟩
    rw [List.map_cons, List.sum_cons, ih rest, split, Finset.card_union_of_disjoint disjoint,
      overlap_eq_card]
    push_cast
    rfl

/-- A moment lies in at most one of them. -/
theorem contained_once {α : Type*} {span : α → HalfOpen} {gs : List α}
    (apart : gs.Pairwise fun g h => (span g).Apart (span h)) (u : Int) :
    (gs.filter fun g => (span g).Contains u).length ≤ 1 := by
  induction gs with
  | nil => exact Nat.zero_le _
  | cons g gs ih =>
    obtain ⟨first, rest⟩ := List.pairwise_cons.mp apart
    by_cases inside : (span g).Contains u
    · have none : (gs.filter fun g => (span g).Contains u) = [] := by
        refine List.filter_eq_nil_iff.mpr fun h mem both => ?_
        exact first h mem u ⟨inside, of_decide_eq_true both⟩
      rw [List.filter_cons, if_pos (decide_eq_true inside), none]
      exact Nat.le_refl _
    · rw [List.filter_cons, if_neg (by simpa using inside)]
      exact ih rest

end HalfOpen
