import Mathlib.Algebra.BigOperators.Group.List.Basic
import Mathlib.Algebra.GroupWithZero.Nat
import Mathlib.Algebra.Order.BigOperators.Group.List
import Mathlib.Algebra.Order.Group.Nat
import Mathlib.Data.List.Dedup
import NetObserver.Keyed

/-! Rows gathered under a key, and what their totals are then. -/

namespace Grouped

variable {α κ : Type*} [DecidableEq κ]

/-- `GROUP BY`: each key once, with the rows that have it. -/
def groupsOf (key : α → κ) (rows : List α) : List (κ × List α) :=
  (rows.map key).dedup.map fun k => (k, rows.filter fun a => key a = k)

variable {key : α → κ} {rows : List α} {k : κ} {a : α} {group : κ × List α}

theorem groupsOf_keys : (groupsOf key rows).map Prod.fst = (rows.map key).dedup := by
  rw [groupsOf, List.map_map]
  exact List.map_id _

theorem groupsOf_keys_nodup (key : α → κ) (rows : List α) :
    ((groupsOf key rows).map Prod.fst).Nodup := by
  rw [groupsOf_keys]
  exact List.nodup_dedup _

theorem mem_groupsOf : group ∈ groupsOf key rows ↔
    ∃ a ∈ rows, group = (key a, rows.filter fun b => key b = key a) := by
  rw [groupsOf, List.mem_map]
  constructor
  · rintro ⟨k, mem, rfl⟩
    obtain ⟨a, held, rfl⟩ := List.mem_map.mp (List.mem_dedup.mp mem)
    exact ⟨a, held, rfl⟩
  · rintro ⟨a, held, rfl⟩
    exact ⟨key a, List.mem_dedup.mpr (List.mem_map_of_mem held), rfl⟩

/-- A row is in one group only, that of its key. -/
theorem mem_group (mem : group ∈ groupsOf key rows) :
    a ∈ group.2 ↔ a ∈ rows ∧ key a = group.1 := by
  obtain ⟨b, _, rfl⟩ := mem_groupsOf.mp mem
  rw [List.mem_filter, decide_eq_true_eq]

theorem fibres_perm {ks : List κ} (distinct : ks.Nodup) (rows : List α) :
    (ks.flatMap fun k => rows.filter fun a => key a = k).Perm
      (rows.filter fun a => key a ∈ ks) := by
  induction ks with
  | nil => simp
  | cons k ks ih =>
    obtain ⟨fresh, rest⟩ := List.nodup_cons.mp distinct
    rw [List.flatMap_cons]
    have split := List.filter_append_perm (fun a => decide (key a = k))
      (rows.filter fun a => key a ∈ k :: ks)
    rw [List.filter_filter, List.filter_filter] at split
    have front : (rows.filter fun a => decide (key a = k) && decide (key a ∈ k :: ks)) =
        rows.filter fun a => key a = k := by
      refine List.filter_congr fun a _ => ?_
      by_cases same : key a = k <;> simp [same]
    have behind : (rows.filter fun a => !decide (key a = k) && decide (key a ∈ k :: ks)) =
        rows.filter fun a => key a ∈ ks := by
      refine List.filter_congr fun a _ => ?_
      by_cases same : key a = k
      · simp [same, fresh]
      · simp [same]
    rw [front, behind] at split
    exact ((ih rest).append_left _).trans split

/-- The groups that `p` keeps hold the rows whose group it keeps, each once. -/
theorem groupsOf_filter_perm (p : κ × List α → Bool) (key : α → κ) (rows : List α) :
    (((groupsOf key rows).filter p).flatMap Prod.snd).Perm
      (rows.filter fun a => p (key a, rows.filter fun b => key b = key a)) := by
  have kept : ((groupsOf key rows).filter p).flatMap Prod.snd =
      ((rows.map key).dedup.filter fun k => p (k, rows.filter fun a => key a = k)).flatMap
        fun k => rows.filter fun a => key a = k := by
    rw [groupsOf, List.filter_map, List.flatMap_map]
    rfl
  rw [kept]
  refine (fibres_perm ((List.nodup_dedup _).filter _) rows).trans (List.Perm.of_eq ?_)
  refine List.filter_congr fun a held => ?_
  have there : key a ∈ (rows.map key).dedup := List.mem_dedup.mpr (List.mem_map_of_mem held)
  rw [Bool.eq_iff_iff, decide_eq_true_eq, List.mem_filter]
  exact ⟨fun h => h.2, fun h => ⟨there, h⟩⟩

/-- Totals taken group by group are the totals of the rows. -/
theorem sum_groupsOf (f : α → Nat) (p : κ × List α → Bool) (key : α → κ) (rows : List α) :
    (((groupsOf key rows).filter p).map fun group => (group.2.map f).sum).sum =
      ((rows.filter fun a => p (key a, rows.filter fun b => key b = key a)).map f).sum := by
  have flat : (((groupsOf key rows).filter p).map fun group => (group.2.map f).sum).sum =
      ((((groupsOf key rows).filter p).flatMap Prod.snd).map f).sum := by
    rw [List.map_flatMap, List.flatMap_def, List.sum_flatten, List.map_map]
    rfl
  rw [flat]
  exact ((groupsOf_filter_perm p key rows).map f).sum_eq

/-- What is left out of a total is a summand of zero. -/
theorem sum_filter (f : α → Nat) (p : α → Bool) (rows : List α) :
    ((rows.filter p).map f).sum = (rows.map fun a => if p a then f a else 0).sum := by
  induction rows with
  | nil => rfl
  | cons a rows ih =>
    rw [List.filter_cons, List.map_cons, List.sum_cons, ← ih]
    cases p a with
    | true => rfl
    | false => exact (Nat.zero_add _).symm

/-- Where every row counts, two totals of which one leaves rows out of the other are equal only when
it leaves out none. -/
theorem sum_filter_eq_iff {f : α → Nat} {p q : α → Bool}
    (below : ∀ a ∈ rows, p a = true → q a = true) (counts : ∀ a ∈ rows, 1 ≤ f a) :
    ((rows.filter p).map f).sum = ((rows.filter q).map f).sum ↔
      ∀ a ∈ rows, q a = true → p a = true := by
  rw [sum_filter, sum_filter]
  have le : ∀ a ∈ rows, (if p a then f a else 0) ≤ if q a then f a else 0 := by
    intro a mem
    cases here : p a with
    | true => rw [below a mem here]
    | false => exact Nat.zero_le _
  constructor
  · intro same a mem there
    by_contra absent
    refine Nat.ne_of_lt (List.sum_lt_sum _ _ le ⟨a, mem, ?_⟩) same
    rw [if_neg absent, if_pos there]
    exact counts a mem
  · intro all
    refine congrArg List.sum (List.map_congr_left fun a mem => ?_)
    rw [Bool.eq_iff_iff.mpr ⟨below a mem, all a mem⟩]

end Grouped

namespace Keyed

variable {α κ : Type*} [DecidableEq κ] {key : α → κ} {merge : α → α → α} {rows news : List α}
  {new r : α} {f : α → Nat} {bound : Nat}

theorem sum_update (distinct : (rows.map key).Nodup) (there : ∃ old ∈ rows, key old = key new)
    (adds : ∀ old ∈ rows, key old = key new → f (merge old new) = f old + f new) :
    ((rows.map fun old => if key old = key new then merge old new else old).map f).sum =
      (rows.map f).sum + f new := by
  induction rows with
  | nil =>
    obtain ⟨old, mem, _⟩ := there
    cases mem
  | cons old rows ih =>
    rw [List.map_cons, List.nodup_cons] at distinct
    have others := adds
    simp only [List.map_cons, List.sum_cons]
    by_cases here : key old = key new
    · have kept : (rows.map fun old => if key old = key new then merge old new else old) = rows := by
        refine (List.map_congr_left fun other held => ?_).trans (List.map_id _)
        refine if_neg fun same => distinct.1 ?_
        exact List.mem_map.mpr ⟨other, held, same.trans here.symm⟩
      rw [if_pos here, kept, adds old List.mem_cons_self here]
      omega
    · rw [if_neg here]
      have later : ∃ old ∈ rows, key old = key new := by
        obtain ⟨other, mem, same⟩ := there
        rcases List.mem_cons.mp mem with rfl | held
        · exact absurd same here
        · exact ⟨other, held, same⟩
      rw [ih distinct.2 later fun other held => adds other (List.mem_cons_of_mem _ held)]
      omega

/-- An upsert adds to the total what the new row has, as long as the merge adds without a loss. -/
theorem sum_upsert (distinct : (rows.map key).Nodup)
    (adds : ∀ old new, key old = key new → f old + f new ≤ bound →
      f (merge old new) = f old + f new) (fits : (rows.map f).sum + f new ≤ bound) :
    ((upsert key merge rows new).map f).sum = (rows.map f).sum + f new := by
  unfold upsert
  split
  next there =>
    obtain ⟨old, held, same⟩ := List.any_eq_true.mp there
    refine sum_update distinct ⟨old, held, of_decide_eq_true same⟩ fun old held same => ?_
    have below : f old ≤ (rows.map f).sum := List.le_sum_of_mem (List.mem_map_of_mem held)
    exact adds old new same (by omega)
  next => rw [List.map_append, List.sum_append, List.map_singleton, List.sum_singleton]

/-- The total of a table of upserts is that of the rows that came. -/
theorem sum_foldl_upsert (keeps : ∀ old new, key old = key new → key (merge old new) = key new)
    (adds : ∀ old new, key old = key new → f old + f new ≤ bound →
      f (merge old new) = f old + f new) (fits : (news.map f).sum ≤ bound) :
    ((news.foldl (upsert key merge) []).map f).sum = (news.map f).sum := by
  induction news using List.reverseRecOn with
  | nil => rfl
  | append_singleton news new ih =>
    rw [List.map_append, List.sum_append, List.map_singleton, List.sum_singleton] at fits ⊢
    rw [List.foldl_concat]
    have before := ih (by omega)
    have none_ : (([] : List α).map key).Nodup := List.nodup_nil
    have distinct := foldl_upsert_keys_nodup keeps none_ news
    rw [sum_upsert distinct adds (by omega), before]

theorem forall_foldl_upsert {P : α → Prop} (fresh : ∀ new ∈ news, P new)
    (kept : ∀ old new, P old → P (merge old new)) :
    ∀ r ∈ news.foldl (upsert key merge) [], P r := by
  induction news using List.reverseRecOn with
  | nil =>
    intro r mem
    cases mem
  | append_singleton news new ih =>
    have before := ih fun other held => fresh other (List.mem_append_left _ held)
    intro r mem
    rw [List.foldl_concat] at mem
    rcases mem_upsert.mp mem with ⟨held, _⟩ | ⟨old, held, _, rfl⟩ | ⟨_, rfl⟩
    · exact before r held
    · exact kept old new (before old held)
    · exact fresh r (List.mem_append_right _ (List.mem_singleton_self r))

/-- So is that of the rows that `p` tells by their key, whatever the others add up to. -/
theorem sum_filter_foldl_upsert (p : κ → Bool)
    (keeps : ∀ old new, key old = key new → key (merge old new) = key new)
    (adds : ∀ old new, key old = key new → f old + f new ≤ bound →
      f (merge old new) = f old + f new)
    (fits : ((news.filter fun r => p (key r)).map f).sum ≤ bound) :
    (((news.foldl (upsert key merge) []).filter fun r => p (key r)).map f).sum =
      ((news.filter fun r => p (key r)).map f).sum := by
  rw [Grouped.sum_filter] at fits
  rw [Grouped.sum_filter, Grouped.sum_filter]
  refine sum_foldl_upsert keeps (fun old new same room => ?_) fits
  rw [keeps old new same]
  rw [same] at room ⊢
  cases kept : p (key new) with
  | true =>
    rw [kept] at room
    exact adds old new same room
  | false => rfl

/-- In a table without two rows of one key, what is counted under a key is what its row has. -/
theorem sum_of_key (distinct : (rows.map key).Nodup) (mem : r ∈ rows) (f : α → Nat) :
    ((rows.filter fun other => key other = key r).map f).sum = f r := by
  have single : (rows.filter fun other => key other = key r) = [r] := by
    induction rows with
    | nil => cases mem
    | cons old rows ih =>
      rw [List.map_cons, List.nodup_cons] at distinct
      rcases List.mem_cons.mp mem with rfl | later
      · have others : (rows.filter fun other => key other = key r) = [] := by
          refine List.filter_eq_nil_iff.mpr fun other held same => distinct.1 ?_
          exact List.mem_map.mpr ⟨other, held, of_decide_eq_true same⟩
        rw [List.filter_cons, if_pos (decide_eq_true rfl), others]
      · rw [List.filter_cons_of_neg, ih distinct.2 later]
        intro same
        refine distinct.1 (List.mem_map.mpr ⟨r, later, ?_⟩)
        exact (of_decide_eq_true same).symm
  rw [single, List.map_singleton, List.sum_singleton]

end Keyed
