import Mathlib.Data.List.Perm.Basic
import Mathlib.Data.List.Nodup
import Std.Data.TreeMap.Lemmas

/-! The keys of an ordered map as it grows. -/

namespace OrderedMap

variable {κ ν : Type*} [Ord κ] [Std.TransOrd κ] {m : Std.TreeMap κ ν}

theorem mem_of_getElem? {k : κ} {v : ν} (found : m[k]? = some v) : k ∈ m := by
  rw [Std.TreeMap.mem_iff_isSome_getElem?, found]
  rfl

theorem getElem?_of_mem {k : κ} (mem : k ∈ m) : ∃ v, m[k]? = some v :=
  Option.isSome_iff_exists.mp (Std.TreeMap.mem_iff_isSome_getElem?.mp mem)

variable [Std.LawfulEqOrd κ]

theorem getElem?_insert (k a : κ) (v : ν) [DecidableEq κ] :
    (m.insert k v)[a]? = if k = a then some v else m[a]? := by
  rw [Std.TreeMap.getElem?_insert]
  simp only [Std.compare_eq_iff_eq]

/-- What an insert leaves at a key: the new value at its own, what was there elsewhere. -/
theorem getElem?_insert_cases [DecidableEq κ] {k a : κ} {v u : ν}
    (found : (m.insert k v)[a]? = some u) : (k = a ∧ v = u) ∨ (k ≠ a ∧ m[a]? = some u) := by
  rw [getElem?_insert] at found
  split at found
  next same => exact .inl ⟨same, Option.some.inj found⟩
  next apart => exact .inr ⟨apart, found⟩

theorem keys_nodup (m : Std.TreeMap κ ν) : m.keys.Nodup := by
  refine List.Pairwise.imp ?_ m.distinct_keys
  intro a b apart same
  subst same
  exact apart Std.ReflCmp.compare_self

theorem keys_insert_of_mem {k : κ} (mem : k ∈ m) (v : ν) : (m.insert k v).keys.Perm m.keys := by
  refine (List.perm_ext_iff_of_nodup (keys_nodup _) (keys_nodup _)).mpr fun a => ?_
  rw [Std.TreeMap.mem_keys, Std.TreeMap.mem_keys, Std.TreeMap.mem_insert, Std.compare_eq_iff_eq]
  constructor
  · rintro (rfl | old)
    · exact mem
    · exact old
  · exact .inr

theorem keys_insert_of_not_mem {k : κ} (fresh : k ∉ m) (v : ν) :
    (m.insert k v).keys.Perm (k :: m.keys) := by
  have nodup : (k :: m.keys).Nodup := by
    refine List.nodup_cons.mpr ⟨?_, keys_nodup m⟩
    rw [Std.TreeMap.mem_keys]
    exact fresh
  refine (List.perm_ext_iff_of_nodup (keys_nodup _) nodup).mpr fun a => ?_
  rw [Std.TreeMap.mem_keys, List.mem_cons, Std.TreeMap.mem_keys, Std.TreeMap.mem_insert,
    Std.compare_eq_iff_eq]
  exact or_congr eq_comm Iff.rfl

theorem toList_keys_nodup (m : Std.TreeMap κ ν) : (m.toList.map Prod.fst).Nodup := by
  rw [Std.TreeMap.map_fst_toList_eq_keys]
  exact keys_nodup m

end OrderedMap
