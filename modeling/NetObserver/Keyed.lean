import Mathlib.Data.List.Induction
import Mathlib.Data.List.Nodup

/-! Tables with a primary key, and the insert that updates the row in place when the key is
there. -/

namespace Keyed

variable {α κ : Type*} [DecidableEq κ]

/-- `INSERT .. ON CONFLICT (key) DO UPDATE`: `merge old new` is what the update leaves. -/
def upsert (key : α → κ) (merge : α → α → α) (rows : List α) (new : α) : List α :=
  if rows.any fun old => key old = key new then
    rows.map fun old => if key old = key new then merge old new else old
  else rows ++ [new]

variable {key : α → κ} {merge : α → α → α} {rows : List α} {new r : α}

theorem mem_upsert : r ∈ upsert key merge rows new ↔
    (r ∈ rows ∧ key r ≠ key new) ∨ (∃ old ∈ rows, key old = key new ∧ r = merge old new) ∨
      ((∀ old ∈ rows, key old ≠ key new) ∧ r = new) := by
  unfold upsert
  split
  next there =>
    obtain ⟨old, held, same⟩ := List.any_eq_true.mp there
    have conflict := of_decide_eq_true same
    rw [List.mem_map]
    constructor
    · rintro ⟨row, mem, rfl⟩
      by_cases hit : key row = key new
      · rw [if_pos hit]
        exact .inr (.inl ⟨row, mem, hit, rfl⟩)
      · rw [if_neg hit]
        exact .inl ⟨mem, hit⟩
    · rintro (⟨mem, apart⟩ | ⟨row, mem, hit, rfl⟩ | ⟨none, -⟩)
      · exact ⟨r, mem, if_neg apart⟩
      · exact ⟨row, mem, if_pos hit⟩
      · exact absurd conflict (none old held)
  next absent =>
    have fresh : ∀ old ∈ rows, key old ≠ key new := by
      intro old mem same
      exact absent (List.any_eq_true.mpr ⟨old, mem, decide_eq_true same⟩)
    rw [List.mem_append, List.mem_singleton]
    constructor
    · rintro (mem | rfl)
      · exact .inl ⟨mem, fresh r mem⟩
      · exact .inr (.inr ⟨fresh, rfl⟩)
    · rintro (⟨mem, -⟩ | ⟨row, mem, hit, -⟩ | ⟨-, rfl⟩)
      · exact .inl mem
      · exact absurd hit (fresh row mem)
      · exact .inr rfl

/-- The key just written has a row. -/
theorem exists_key_upsert (keeps : ∀ old, key old = key new → key (merge old new) = key new) :
    ∃ row ∈ upsert key merge rows new, key row = key new := by
  by_cases there : ∃ old ∈ rows, key old = key new
  · obtain ⟨old, held, same⟩ := there
    exact ⟨merge old new, mem_upsert.mpr (.inr (.inl ⟨old, held, same, rfl⟩)), keeps old same⟩
  · have fresh : ∀ old ∈ rows, key old ≠ key new := fun old held same => there ⟨old, held, same⟩
    exact ⟨new, mem_upsert.mpr (.inr (.inr ⟨fresh, rfl⟩)), rfl⟩

/-- No key is lost. -/
theorem exists_key_upsert_of_mem
    (keeps : ∀ old, key old = key new → key (merge old new) = key new) (held : r ∈ rows) :
    ∃ row ∈ upsert key merge rows new, key row = key r := by
  by_cases same : key r = key new
  · rw [same]
    exact exists_key_upsert keeps
  · exact ⟨r, mem_upsert.mpr (.inl ⟨held, same⟩), rfl⟩

section

variable (key)

/-- The row under a key. -/
def rowOf (rows : List α) (k : κ) : Option α := rows.find? fun r => key r = k

variable {key} {k : κ}

theorem rowOf_key (found : rowOf key rows k = some r) : r ∈ rows ∧ key r = k := by
  unfold rowOf at found
  have same := List.find?_some found
  exact ⟨List.mem_of_find?_eq_some found, of_decide_eq_true same⟩

theorem rowOf_eq_none : rowOf key rows k = none ↔ ∀ r ∈ rows, key r ≠ k := by
  rw [rowOf, List.find?_eq_none]
  simp only [decide_eq_true_eq]

/-- In a table without two rows of one key, a row is the one under its key. -/
theorem rowOf_of_mem (distinct : (rows.map key).Nodup) (mem : r ∈ rows) :
    rowOf key rows (key r) = some r := by
  cases found : rowOf key rows (key r) with
  | none => exact absurd rfl (rowOf_eq_none.mp found r mem)
  | some s =>
    obtain ⟨held, same⟩ := rowOf_key found
    rw [List.inj_on_of_nodup_map distinct held mem same]

theorem map_update_keys (keeps : ∀ old new, key old = key new → key (merge old new) = key new)
    (rows : List α) (new : α) :
    (rows.map fun old => if key old = key new then merge old new else old).map key =
      rows.map key := by
  rw [List.map_map]
  refine List.map_congr_left fun old _ => ?_
  rw [Function.comp_apply]
  split
  next same => exact (keeps old new same).trans same.symm
  next => rfl

theorem upsert_keys_nodup (keeps : ∀ old new, key old = key new → key (merge old new) = key new)
    (distinct : (rows.map key).Nodup) : ((upsert key merge rows new).map key).Nodup := by
  unfold upsert
  split
  next =>
    rw [map_update_keys keeps]
    exact distinct
  next absent =>
    rw [List.map_append, List.nodup_append]
    refine ⟨distinct, List.nodup_singleton _, fun a mem b single => ?_⟩
    obtain ⟨old, held, rfl⟩ := List.mem_map.mp mem
    rw [List.mem_singleton.mp single]
    intro same
    exact absent (List.any_eq_true.mpr ⟨old, held, decide_eq_true same⟩)

theorem rowOf_map_update (keeps : ∀ old new, key old = key new → key (merge old new) = key new)
    (rows : List α) (new : α) (k : κ) :
    rowOf key (rows.map fun old => if key old = key new then merge old new else old) k =
      (rowOf key rows k).map fun old => if key old = key new then merge old new else old := by
  rw [rowOf, List.find?_map, rowOf]
  congr 2
  funext old
  rw [Function.comp_apply]
  split
  next same => rw [keeps old new same, same]
  next => rfl

/-- An upsert under one key: what was there merged with the new row, or the new row. -/
theorem rowOf_upsert (keeps : ∀ old new, key old = key new → key (merge old new) = key new)
    (rows : List α) (new : α) (k : κ) : rowOf key (upsert key merge rows new) k =
      if key new = k then some ((rowOf key rows k).elim new (merge · new)) else rowOf key rows k := by
  unfold upsert
  split
  next there =>
    rw [rowOf_map_update keeps]
    by_cases here : key new = k
    · rw [if_pos here]
      cases found : rowOf key rows k with
      | none =>
        obtain ⟨old, held, same⟩ := List.any_eq_true.mp there
        exact absurd ((of_decide_eq_true same).trans here) (rowOf_eq_none.mp found old held)
      | some old => simp [(rowOf_key found).2, here]
    · rw [if_neg here]
      cases found : rowOf key rows k with
      | none => rfl
      | some old =>
        have apart : key old ≠ key new := fun same => here (same.symm.trans (rowOf_key found).2)
        rw [Option.map_some, if_neg apart]
  next absent =>
    rw [rowOf, List.find?_append, ← rowOf]
    by_cases here : key new = k
    · have none_ : rowOf key rows k = none := by
        refine rowOf_eq_none.mpr fun old held same => absent ?_
        exact List.any_eq_true.mpr ⟨old, held, decide_eq_true (same.trans here.symm)⟩
      rw [if_pos here, none_]
      simp [here]
    · rw [if_neg here]
      simp [here]

/-- A table after a list of upserts: under a key only the upserts of that key count. -/
theorem rowOf_foldl_upsert (keeps : ∀ old new, key old = key new → key (merge old new) = key new)
    (rows news : List α) (k : κ) : rowOf key (news.foldl (upsert key merge) rows) k =
      (news.filter fun n => key n = k).foldl
        (fun found new => some (found.elim new (merge · new))) (rowOf key rows k) := by
  induction news using List.reverseRecOn with
  | nil => rfl
  | append_singleton news new ih =>
    rw [List.foldl_concat, rowOf_upsert keeps, List.filter_append, List.foldl_append, ← ih]
    by_cases here : key new = k
    · rw [if_pos here]
      simp [here]
    · rw [if_neg here]
      simp [here]

theorem foldl_upsert_keys_nodup
    (keeps : ∀ old new, key old = key new → key (merge old new) = key new)
    (distinct : (rows.map key).Nodup) (news : List α) :
    ((news.foldl (upsert key merge) rows).map key).Nodup := by
  induction news using List.reverseRecOn with
  | nil => exact distinct
  | append_singleton news new ih =>
    rw [List.foldl_concat]
    exact upsert_keys_nodup keeps ih

theorem upsert_keys (keeps : ∀ old new, key old = key new → key (merge old new) = key new)
    (rows : List α) (new : α) : (upsert key merge rows new).map key =
      if key new ∈ rows.map key then rows.map key else rows.map key ++ [key new] := by
  unfold upsert
  split
  next there =>
    obtain ⟨old, mem, same⟩ := List.any_eq_true.mp there
    rw [map_update_keys keeps, if_pos (List.mem_map.mpr ⟨old, mem, of_decide_eq_true same⟩)]
  next absent =>
    have fresh : key new ∉ rows.map key := by
      intro mem
      obtain ⟨old, held, same⟩ := List.mem_map.mp mem
      exact absent (List.any_eq_true.mpr ⟨old, held, decide_eq_true same⟩)
    rw [if_neg fresh, List.map_append, List.map_singleton]

theorem eraseDups_concat [BEq κ] [LawfulBEq κ] (keys : List κ) (k : κ) :
    (keys ++ [k]).eraseDups = if k ∈ keys then keys.eraseDups else keys.eraseDups ++ [k] := by
  rw [List.eraseDups_append, List.removeAll, List.filter_singleton]
  by_cases held : k ∈ keys
  · simp [held]
  · simp [held, List.eraseDups_cons]

/-- The keys of a table of upserts stand in the order in which they first came. -/
theorem foldl_upsert_keys [BEq κ] [LawfulBEq κ]
    (keeps : ∀ old new, key old = key new → key (merge old new) = key new) (news : List α) :
    (news.foldl (upsert key merge) []).map key = (news.map key).eraseDups := by
  induction news using List.reverseRecOn with
  | nil => rfl
  | append_singleton news new ih =>
    rw [List.foldl_concat, upsert_keys keeps, ih, List.map_append, List.map_singleton,
      eraseDups_concat]
    simp only [List.mem_eraseDups]

end

end Keyed
