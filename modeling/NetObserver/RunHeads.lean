import Mathlib.Data.List.Destutter

/-! The first entry of each run of entries with one key, in a list whose order keeps such entries
together. -/

namespace NetObserver

variable {α κ : Type*} [DecidableEq κ]

/-- `dedup_by` on a key: an entry goes when the last one kept has its key. -/
def runHeads (key : α → κ) (l : List α) : List α := l.destutter fun a b => key a ≠ key b

/-- An order in which nothing stands between two entries of one key. -/
structure KeepsTogether (key : α → κ) (le : α → α → Prop) : Prop where
  refl : ∀ a, le a a
  trans : ∀ {a b c}, le a b → le b c → le a c
  block : ∀ {a b c}, le a b → le b c → key a = key c → key a = key b

section

variable {key : α → κ} {le : α → α → Prop} {a x y : α} {l : List α}

theorem mem_of_mem_runHeads (mem : x ∈ runHeads key l) : x ∈ l :=
  (l.destutter_sublist _).subset mem

theorem runHeads_keys (key : α → κ) (mem : y ∈ l) : key y ∈ (runHeads key l).map key := by
  cases l with
  | nil => cases mem
  | cons a l =>
    unfold runHeads
    rw [List.destutter_cons']
    induction l generalizing a y with
    | nil =>
      rw [List.destutter'_nil, List.mem_singleton.mp mem]
      exact List.mem_singleton_self _
    | cons b l ih =>
      by_cases other : key a ≠ key b
      · rw [List.destutter', if_pos other, List.map_cons, List.mem_cons]
        rcases List.mem_cons.mp mem with rfl | later
        · exact .inl rfl
        · exact .inr (ih _ later)
      · have same : key a = key b := not_not.mp other
        rw [List.destutter', if_neg other]
        rcases List.mem_cons.mp mem with rfl | later
        · exact ih _ List.mem_cons_self
        · rcases List.mem_cons.mp later with rfl | last
          · rw [← same]
            exact ih _ List.mem_cons_self
          · exact ih _ (List.mem_cons_of_mem _ last)

omit [DecidableEq κ] in
theorem KeepsTogether.head_le (together : KeepsTogether key le) (sorted : (a :: l).Pairwise le)
    (mem : x ∈ a :: l) : le a x := by
  rcases List.mem_cons.mp mem with rfl | later
  · exact together.refl _
  · exact (List.pairwise_cons.mp sorted).1 x later

variable (together : KeepsTogether key le) (sorted : l.Pairwise le)

include together sorted

theorem runHeads_nodup : ((runHeads key l).map key).Nodup := by
  cases l with
  | nil => exact List.nodup_nil
  | cons a l =>
    unfold runHeads
    rw [List.destutter_cons']
    induction l generalizing a with
    | nil => exact List.nodup_singleton _
    | cons b l ih =>
      obtain ⟨first, rest⟩ := List.pairwise_cons.mp sorted
      by_cases other : key a ≠ key b
      · rw [List.destutter', if_pos other, List.map_cons, List.nodup_cons]
        refine ⟨?_, ih _ rest⟩
        intro again
        obtain ⟨c, mem, same⟩ := List.mem_map.mp again
        have own : c ∈ b :: l := (l.destutter'_sublist _ b).subset mem
        have after := together.head_le rest own
        exact other (together.block (first b List.mem_cons_self) after same.symm)
      · rw [List.destutter', if_neg other]
        exact ih _ (sorted.sublist ((List.sublist_cons_self b l).cons_cons a))

/-- What is kept of a key is the least of its entries. -/
theorem runHeads_least (mem : x ∈ runHeads key l) (entry : y ∈ l) (same : key y = key x) :
    le x y := by
  cases l with
  | nil => cases entry
  | cons a l =>
    unfold runHeads at mem
    rw [List.destutter_cons'] at mem
    induction l generalizing a y with
    | nil =>
      rw [List.destutter'_nil] at mem
      rw [List.mem_singleton.mp mem, List.mem_singleton.mp entry]
      exact together.refl a
    | cons b l ih =>
      obtain ⟨first, rest⟩ := List.pairwise_cons.mp sorted
      by_cases other : key a ≠ key b
      · rw [List.destutter', if_pos other, List.mem_cons] at mem
        rcases mem with rfl | mem
        · exact together.head_le sorted entry
        · rcases List.mem_cons.mp entry with rfl | later
          · have own : x ∈ b :: l := (l.destutter'_sublist _ b).subset mem
            have after := together.head_le rest own
            exact absurd (together.block (first b List.mem_cons_self) after same) other
          · exact ih same _ rest mem later
      · have shorter := sorted.sublist ((List.sublist_cons_self b l).cons_cons a)
        rw [List.destutter', if_neg other] at mem
        rcases List.mem_cons.mp entry with rfl | later
        · exact ih same _ shorter mem List.mem_cons_self
        · rcases List.mem_cons.mp later with rfl | last
          · have front := ih (by rw [not_not.mp other, same]) _ shorter mem List.mem_cons_self
            exact together.trans front (first y List.mem_cons_self)
          · exact ih same _ shorter mem (List.mem_cons_of_mem _ last)

end

end NetObserver
