import Mathlib.Data.List.Dedup
import Mathlib.Data.List.Nodup
import Mathlib.Data.List.Perm.Subperm
import Mathlib.Order.Lattice

/-! Half-open stretches of a line in rows, each in the first row that is free where it starts. -/

namespace IntervalRows

variable {ι κ α : Type*} [LinearOrder α] (start stop : ι → α)

def Apart (a b : ι) : Prop := stop a ≤ start b ∨ stop b ≤ start a

def covers (x : α) (a : ι) : Bool := start a ≤ x && x < stop a

/-- The items seated so far, in order of their starts, with their rows, and where each row ends. -/
structure Seated (ends : List α) (seated : List (ι × Nat)) : Prop where
  within : ∀ p ∈ seated, ∃ e, ends[p.2]? = some e ∧ stop p.1 ≤ e
  reached : ∀ r e, ends[r]? = some e → ∃ p ∈ seated, p.2 = r ∧ stop p.1 = e
  apart : seated.Pairwise fun p q => p.2 = q.2 → stop p.1 ≤ start q.1
  crowded : ends ≠ [] → ∃ x, ends.length ≤ (seated.filter fun p => covers start stop x p.1).length

variable {start stop} {ends : List α} {seated : List (ι × Nat)}

theorem Seated.empty : Seated start stop [] [] where
  within := fun _ mem => nomatch mem
  reached := fun _ _ found => nomatch found
  apart := List.Pairwise.nil
  crowded := fun some_ => absurd rfl some_

theorem covers_iff {x : α} {a : ι} :
    covers start stop x a = true ↔ start a ≤ x ∧ x < stop a := by
  rw [covers, Bool.and_eq_true, decide_eq_true_eq, decide_eq_true_eq]

/-- Two that cover one point are not apart. -/
theorem not_apart {x : α} {a b : ι} (left : covers start stop x a = true)
    (right : covers start stop x b = true) : ¬ Apart start stop a b := by
  rw [covers_iff] at left right
  intro apart
  rcases apart with before | behind
  · exact absurd (lt_of_lt_of_le left.2 (le_trans before right.1)) (lt_irrefl x)
  · exact absurd (lt_of_lt_of_le right.2 (le_trans behind left.1)) (lt_irrefl x)

/-- Rows that are all taken by some of the items are no more than these. -/
theorem length_le_of_rows {n : Nat} {items : List (ι × Nat)}
    (taken : ∀ r < n, ∃ p ∈ items, p.2 = r) : n ≤ items.length := by
  have subset : List.range n ⊆ items.map Prod.snd := by
    intro r mem
    obtain ⟨p, own, same⟩ := taken r (List.mem_range.mp mem)
    exact List.mem_map.mpr ⟨p, own, same⟩
  have fewer := (List.nodup_range.subperm subset).length_le
  rw [List.length_range, List.length_map] at fewer
  exact fewer

namespace Seated

variable {i : ι}

theorem apart_seat (inv : Seated start stop ends seated) {row : Nat}
    (free : ∀ p ∈ seated, p.2 = row → stop p.1 ≤ start i) :
    (seated ++ [(i, row)]).Pairwise fun p q => p.2 = q.2 → stop p.1 ≤ start q.1 := by
  rw [List.pairwise_append]
  refine ⟨inv.apart, List.pairwise_singleton _ _, ?_⟩
  intro p mem q own same
  rw [List.mem_singleton.mp own] at same ⊢
  exact free p mem same

/-- An item takes a row that has ended where it starts. -/
theorem reuse (inv : Seated start stop ends seated) (proper : start i < stop i) {row : Nat} {e : α}
    (ended : ends[row]? = some e) (free : e ≤ start i) :
    Seated start stop (ends.set row (stop i)) (seated ++ [(i, row)]) := by
  have inside : row < ends.length := (List.getElem?_eq_some_iff.mp ended).1
  have now : (ends.set row (stop i))[row]? = some (stop i) := List.getElem?_set_self inside
  have before : ∀ p ∈ seated, p.2 = row → stop p.1 ≤ start i := by
    intro p mem same
    obtain ⟨e', found, le⟩ := inv.within p mem
    rw [same, ended] at found
    cases found
    exact le_trans le free
  refine ⟨?_, ?_, inv.apart_seat before, ?_⟩
  · intro p mem
    rcases List.mem_append.mp mem with old | new
    · obtain ⟨e', found, le⟩ := inv.within p old
      by_cases same : p.2 = row
      · refine ⟨stop i, ?_, le_trans (before p old same) (le_of_lt proper)⟩
        rw [same]
        exact now
      · refine ⟨e', ?_, le⟩
        rw [List.getElem?_set_ne (Ne.symm same)]
        exact found
    · rw [List.mem_singleton.mp new]
      exact ⟨stop i, now, le_refl _⟩
  · intro r e' found
    by_cases same : r = row
    · rw [same, now] at found
      cases found
      exact ⟨(i, row), List.mem_append_right _ (List.mem_singleton_self _), same.symm, rfl⟩
    · rw [List.getElem?_set_ne (Ne.symm same)] at found
      obtain ⟨p, mem, own⟩ := inv.reached r e' found
      exact ⟨p, List.mem_append_left _ mem, own⟩
  · intro _
    have some_ : ends ≠ [] := List.ne_nil_of_length_pos (by omega)
    obtain ⟨x, many⟩ := inv.crowded some_
    refine ⟨x, ?_⟩
    rw [List.length_set, List.filter_append, List.length_append]
    omega

/-- Where no row is free, an item of every row goes on over the start of the new one. -/
theorem crowded_full (inv : Seated start stop ends seated) (proper : start i < stop i)
    (sorted : ∀ p ∈ seated, start p.1 ≤ start i) (full : ∀ e ∈ ends, start i < e) :
    ends.length + 1 ≤ ((seated ++ [(i, ends.length)]).filter fun p =>
      covers start stop (start i) p.1).length := by
  apply length_le_of_rows
  intro r bound
  by_cases old : r < ends.length
  · obtain ⟨p, mem, row, reach⟩ := inv.reached r ends[r] (List.getElem?_eq_getElem old)
    have beyond : start i < stop p.1 := by
      rw [reach]
      exact full _ (List.getElem_mem old)
    have here : covers start stop (start i) p.1 = true := covers_iff.mpr ⟨sorted p mem, beyond⟩
    exact ⟨p, List.mem_filter.mpr ⟨List.mem_append_left _ mem, here⟩, row⟩
  · have own : covers start stop (start i) i = true := covers_iff.mpr ⟨le_refl _, proper⟩
    exact ⟨(i, ends.length), List.mem_filter.mpr
      ⟨List.mem_append_right _ (List.mem_singleton_self _), own⟩, by omega⟩

/-- An item for which no row is free opens one. -/
theorem open_ (inv : Seated start stop ends seated) (proper : start i < stop i)
    (sorted : ∀ p ∈ seated, start p.1 ≤ start i) (full : ∀ e ∈ ends, start i < e) :
    Seated start stop (ends ++ [stop i]) (seated ++ [(i, ends.length)]) := by
  have inside : ∀ p ∈ seated, p.2 < ends.length := by
    intro p mem
    obtain ⟨_, found, _⟩ := inv.within p mem
    exact (List.getElem?_eq_some_iff.mp found).1
  have now : (ends ++ [stop i])[ends.length]? = some (stop i) := List.getElem?_concat_length
  refine ⟨?_, ?_, ?_, ?_⟩
  · intro p mem
    rcases List.mem_append.mp mem with old | new
    · obtain ⟨e, found, le⟩ := inv.within p old
      refine ⟨e, ?_, le⟩
      rw [List.getElem?_append_left (inside p old)]
      exact found
    · rw [List.mem_singleton.mp new]
      exact ⟨stop i, now, le_refl _⟩
  · intro r e found
    by_cases old : r < ends.length
    · rw [List.getElem?_append_left old] at found
      obtain ⟨p, mem, own⟩ := inv.reached r e found
      exact ⟨p, List.mem_append_left _ mem, own⟩
    · have last : r = ends.length := by
        have bound := (List.getElem?_eq_some_iff.mp found).1
        rw [List.length_append, List.length_singleton] at bound
        omega
      rw [last, now] at found
      cases found
      exact ⟨(i, ends.length), List.mem_append_right _ (List.mem_singleton_self _), last.symm, rfl⟩
  · apply inv.apart_seat
    intro p mem same
    have bound := inside p mem
    omega
  · intro _
    refine ⟨start i, ?_⟩
    rw [List.length_append, List.length_singleton]
    exact inv.crowded_full proper sorted full

end Seated

/-- Items that share a point have a colour each, where items of one colour are apart. -/
theorem covering_le_colours [DecidableEq κ] {items : List ι} (distinct : items.Nodup)
    {colour : ι → κ} (separated : ∀ a ∈ items, ∀ b ∈ items, a ≠ b → colour a = colour b →
      Apart start stop a b) (x : α) :
    (items.filter (covers start stop x)).length ≤ (items.map colour).dedup.length := by
  have apart : ((items.filter (covers start stop x)).map colour).Nodup := by
    apply List.Nodup.map_on _ (distinct.filter _)
    intro a ma b mb same
    obtain ⟨ia, ca⟩ := List.mem_filter.mp ma
    obtain ⟨ib, cb⟩ := List.mem_filter.mp mb
    by_contra other
    exact not_apart ca cb (separated a ia b ib other same)
  have subset : (items.filter (covers start stop x)).map colour ⊆ (items.map colour).dedup := by
    intro c mem
    obtain ⟨a, own, same⟩ := List.mem_map.mp mem
    exact List.mem_dedup.mpr (List.mem_map.mpr ⟨a, (List.mem_filter.mp own).1, same⟩)
  have fewer := (apart.subperm subset).length_le
  rw [List.length_map] at fewer
  exact fewer

end IntervalRows
