import Mathlib.Data.List.Dedup
import Mathlib.Data.List.MinMax
import Mathlib.Data.List.Nodup
import Mathlib.Data.List.Sort

/-! Joins and window functions over lists of rows. -/

namespace Relational

variable {α β κ ι : Type*}

def leftJoin (on : α → β → Bool) (left : List α) (right : List β) : List (α × Option β) :=
  left.flatMap fun a =>
    match right.filter (on a) with
    | [] => [(a, none)]
    | bs => bs.map fun b => (a, some b)

theorem mem_leftJoin_some {on : α → β → Bool} {left : List α} {right : List β} {a : α} {b : β} :
    (a, some b) ∈ leftJoin on left right ↔ a ∈ left ∧ b ∈ right ∧ on a b = true := by
  simp only [leftJoin, List.mem_flatMap]
  constructor
  · rintro ⟨a', mem, row⟩
    split at row
    · simp at row
    · obtain ⟨b', held, same⟩ := List.mem_map.mp row
      cases same
      exact ⟨mem, List.mem_filter.mp held⟩
  · rintro ⟨mem, held⟩
    refine ⟨a, mem, ?_⟩
    have found : b ∈ right.filter (on a) := List.mem_filter.mpr held
    split
    next none =>
      rw [none] at found
      cases found
    next => exact List.mem_map.mpr ⟨b, found, rfl⟩

theorem mem_leftJoin_none {on : α → β → Bool} {left : List α} {right : List β} {a : α} :
    (a, none) ∈ leftJoin on left right ↔ a ∈ left ∧ ∀ b ∈ right, on a b = false := by
  simp only [leftJoin, List.mem_flatMap]
  constructor
  · rintro ⟨a', mem, row⟩
    split at row
    next none =>
      simp only [List.mem_singleton, Prod.mk.injEq, and_true] at row
      subst row
      refine ⟨mem, fun b held => ?_⟩
      exact Bool.eq_false_iff.mpr (List.filter_eq_nil_iff.mp none b held)
    next => simp at row
  · rintro ⟨mem, unmatched⟩
    have none : right.filter (on a) = [] :=
      List.filter_eq_nil_iff.mpr fun b held => by simp [unmatched b held]
    exact ⟨a, mem, by simp [none]⟩

theorem mem_of_leftJoin {on : α → β → Bool} {left : List α} {right : List β} {a : α} {o : Option β}
    (mem : (a, o) ∈ leftJoin on left right) : a ∈ left := by
  cases o with
  | none => exact (mem_leftJoin_none.mp mem).1
  | some b => exact (mem_leftJoin_some.mp mem).1

/-- No row is lost. -/
theorem exists_leftJoin (on : α → β → Bool) {left : List α} (right : List β) {a : α}
    (mem : a ∈ left) : ∃ o, (a, o) ∈ leftJoin on left right := by
  by_cases partner : ∃ b ∈ right, on a b = true
  · obtain ⟨b, held, joins⟩ := partner
    exact ⟨some b, mem_leftJoin_some.mpr ⟨mem, held, joins⟩⟩
  · refine ⟨none, mem_leftJoin_none.mpr ⟨mem, fun b held => ?_⟩⟩
    exact Bool.eq_false_iff.mpr fun joins => partner ⟨b, held, joins⟩

/-- Where no row has two partners, the join keeps the rows as they are. -/
theorem leftJoin_map_fst {on : α → β → Bool} {left : List α} {right : List β}
    (single : ∀ a ∈ left, (right.filter (on a)).length ≤ 1) :
    (leftJoin on left right).map Prod.fst = left := by
  induction left with
  | nil => rfl
  | cons a left ih =>
    have here := single a (List.mem_cons_self ..)
    have rest := ih fun b mem => single b (List.mem_cons_of_mem _ mem)
    have split : leftJoin on (a :: left) right =
        (match right.filter (on a) with
          | [] => [(a, none)]
          | bs => bs.map fun b => (a, some b)) ++ leftJoin on left right := rfl
    rw [split, List.map_append, rest]
    rcases partners : right.filter (on a) with _ | ⟨b, _ | ⟨c, more⟩⟩
    · rfl
    · rfl
    · rw [partners, List.length_cons, List.length_cons] at here
      omega

/-- A property that one of some distinct rows has singles it out. -/
theorem length_filter_eq_one {rows : List α} {a : α} {p : α → Bool} (distinct : rows.Nodup)
    (mem : a ∈ rows) (has : p a = true) (only : ∀ b ∈ rows, p b = true → b = a) :
    (rows.filter p).length = 1 := by
  have same : (rows.filter p).Perm [a] := by
    refine (List.perm_ext_iff_of_nodup (distinct.filter _) (List.nodup_singleton a)).mpr ?_
    intro b
    rw [List.mem_filter, List.mem_singleton]
    constructor
    · rintro ⟨held, holds⟩
      exact only b held holds
    · rintro rfl
      exact ⟨mem, has⟩
  exact same.length_eq

section

variable [LinearOrder ι]

/-- The newest row, of rows with one time the first. -/
def newestOf (time : α → ι) (rows : List α) : Option α := rows.argmax time

/-- The newest row at or before a time; of rows with one time the first. -/
def asOf (time : α → ι) (rows : List α) (t : ι) : Option α :=
  (rows.filter fun a => time a ≤ t).argmax time

def newestBefore (time : α → ι) (rows : List α) (t : ι) : Option α :=
  (rows.filter fun a => time a < t).argmax time

variable {time : α → ι} {rows : List α} {t : ι} {a : α}

theorem newestOf_mem (found : newestOf time rows = some a) : a ∈ rows := List.argmax_mem found

theorem newestOf_none : newestOf time rows = none ↔ rows = [] := List.argmax_eq_none

theorem asOf_mem (found : asOf time rows t = some a) : a ∈ rows ∧ time a ≤ t := by
  have mem := List.mem_filter.mp (List.argmax_mem found)
  exact ⟨mem.1, of_decide_eq_true mem.2⟩

theorem asOf_newest (found : asOf time rows t = some a) {b : α} (mem : b ∈ rows)
    (before : time b ≤ t) : time b ≤ time a :=
  List.le_of_mem_argmax (List.mem_filter.mpr ⟨mem, decide_eq_true before⟩) found

theorem asOf_none : asOf time rows t = none ↔ ∀ b ∈ rows, t < time b := by
  rw [asOf, List.argmax_eq_none, List.filter_eq_nil_iff]
  simp only [decide_eq_true_eq, not_le]

theorem asOf_some_of_mem (mem : a ∈ rows) (before : time a ≤ t) : ∃ b, asOf time rows t = some b := by
  cases found : asOf time rows t with
  | some b => exact ⟨b, rfl⟩
  | none => exact absurd before (not_le.mpr (asOf_none.mp found a mem))

theorem newestBefore_mem (found : newestBefore time rows t = some a) : a ∈ rows ∧ time a < t := by
  have mem := List.mem_filter.mp (List.argmax_mem found)
  exact ⟨mem.1, of_decide_eq_true mem.2⟩

theorem newestBefore_newest (found : newestBefore time rows t = some a) {b : α} (mem : b ∈ rows)
    (before : time b < t) : time b ≤ time a :=
  List.le_of_mem_argmax (List.mem_filter.mpr ⟨mem, decide_eq_true before⟩) found

theorem newestBefore_some_of_mem (mem : a ∈ rows) (before : time a < t) :
    ∃ b, newestBefore time rows t = some b := by
  cases found : newestBefore time rows t with
  | some b => exact ⟨b, rfl⟩
  | none =>
    rw [newestBefore, List.argmax_eq_none, List.filter_eq_nil_iff] at found
    exact absurd (decide_eq_true before) (found a mem)

/-- The rows numbered one in their partitions: of each key the first in the order. -/
def firstOfEach [DecidableEq κ] (key : α → κ) (order : α → ι) (rows : List α) : List α :=
  (rows.map key).dedup.filterMap fun k => (rows.filter fun a => key a = k).argmin order

variable [DecidableEq κ] {key : α → κ} {order : α → ι}

theorem mem_firstOfEach (mem : a ∈ firstOfEach key order rows) :
    a ∈ rows ∧ ∀ b ∈ rows, key b = key a → order a ≤ order b := by
  obtain ⟨k, _, found⟩ := List.mem_filterMap.mp mem
  obtain ⟨held, same⟩ := List.mem_filter.mp (List.argmin_mem found)
  have same := of_decide_eq_true same
  refine ⟨held, fun b mem' key' => ?_⟩
  refine List.le_of_mem_argmin (List.mem_filter.mpr ⟨mem', ?_⟩) found
  exact decide_eq_true (key'.trans same)

theorem exists_firstOfEach {b : α} (mem : b ∈ rows) :
    ∃ a ∈ firstOfEach key order rows, key a = key b := by
  have held : b ∈ rows.filter fun a => key a = key b := List.mem_filter.mpr ⟨mem, by simp⟩
  cases found : (rows.filter fun a => key a = key b).argmin order with
  | none =>
    rw [List.argmin_eq_none] at found
    rw [found] at held
    cases held
  | some a =>
    refine ⟨a, List.mem_filterMap.mpr ⟨key b, ?_, found⟩, ?_⟩
    · exact List.mem_dedup.mpr (List.mem_map_of_mem mem)
    · exact of_decide_eq_true (List.mem_filter.mp (List.argmin_mem found)).2

theorem firstOfEach_keys_nodup (key : α → κ) (order : α → ι) (rows : List α) :
    ((firstOfEach key order rows).map key).Nodup := by
  have keyed (ks : List κ) :
      ((ks.filterMap fun k => (rows.filter fun a => key a = k).argmin order).map key).Sublist ks := by
    induction ks with
    | nil => exact .slnil
    | cons k ks ih =>
      rw [List.filterMap_cons]
      cases found : (rows.filter fun a => key a = k).argmin order with
      | none => exact ih.cons k
      | some a =>
        have same : key a = k := of_decide_eq_true (List.mem_filter.mp (List.argmin_mem found)).2
        rw [← same]
        exact ih.cons_cons _
  exact (keyed _).nodup (List.nodup_dedup _)

theorem firstOfEach_unique {a b : α} (first : a ∈ firstOfEach key order rows)
    (second : b ∈ firstOfEach key order rows) (same : key a = key b) : a = b :=
  List.inj_on_of_nodup_map (firstOfEach_keys_nodup key order rows) first second same

end

/-- Each row beside the one before it, if there is one. -/
def lag (rows : List α) : List (Option α × α) := (none :: rows.map some).zip rows

section

variable [LinearOrder ι]

/-- Each row beside the one before it in time. -/
def lagOver (time : α → ι) (rows : List α) : List (Option α × α) :=
  lag (rows.insertionSort fun a b => time a ≤ time b)

theorem lag_cons (a : α) (rows : List α) :
    lag (a :: rows) = (none, a) :: (((some a) :: rows.map some).zip rows) := rfl

theorem mem_zip_some {time : α → ι} {rows : List α} {x a b : α}
    (sorted : (x :: rows).Pairwise fun a b => time a < time b) :
    (some a, b) ∈ (some x :: rows.map some).zip rows ↔
      a ∈ x :: rows ∧ b ∈ x :: rows ∧ time a < time b ∧
        ∀ c ∈ x :: rows, ¬ (time a < time c ∧ time c < time b) := by
  induction rows generalizing x with
  | nil =>
    constructor
    · intro mem
      cases mem
    · rintro ⟨ma, mb, less, _⟩
      rw [List.mem_singleton] at ma mb
      subst ma mb
      exact absurd less (lt_irrefl _)
  | cons y rows ih =>
    obtain ⟨first, rest⟩ := List.pairwise_cons.mp sorted
    have after : ∀ c ∈ rows, time y < time c := (List.pairwise_cons.mp rest).1
    have xy := first y (List.mem_cons_self ..)
    rw [List.map_cons, List.zip_cons_cons, List.mem_cons, ih rest]
    constructor
    · rintro (same | ⟨ma, mb, less, between⟩)
      · simp only [Prod.mk.injEq, Option.some.injEq] at same
        obtain ⟨rfl, rfl⟩ := same
        refine ⟨List.mem_cons_self .., by simp, xy, ?_⟩
        intro c mem inside
        rcases List.mem_cons.mp mem with rfl | mem
        · exact lt_irrefl _ inside.1
        · rcases List.mem_cons.mp mem with rfl | mem
          · exact lt_irrefl _ inside.2
          · exact lt_asymm inside.2 (after c mem)
      · refine ⟨List.mem_cons_of_mem _ ma, List.mem_cons_of_mem _ mb, less, ?_⟩
        intro c mem inside
        rcases List.mem_cons.mp mem with rfl | mem
        · exact lt_asymm (first a ma) inside.1
        · exact between c mem inside
    · rintro ⟨ma, mb, less, between⟩
      have mb' : b ∈ y :: rows := by
        rcases List.mem_cons.mp mb with rfl | mb
        · rcases List.mem_cons.mp ma with rfl | ma
          · exact absurd less (lt_irrefl _)
          · exact absurd less (lt_asymm (first a ma))
        · exact mb
      rcases List.mem_cons.mp ma with rfl | ma
      · left
        rcases List.mem_cons.mp mb' with rfl | later
        · rfl
        · exact absurd ⟨xy, after b later⟩ (between y (by simp))
      · exact .inr ⟨ma, mb', less, fun c mem => between c (List.mem_cons_of_mem _ mem)⟩

theorem map_snd_lag (rows : List α) : (lag rows).map Prod.snd = rows := by
  refine List.map_snd_zip ?_
  rw [List.length_cons, List.length_map]
  exact Nat.le_succ _

theorem mem_lag {time : α → ι} {rows : List α}
    (sorted : rows.Pairwise fun a b => time a < time b) {a b : α} :
    (some a, b) ∈ lag rows ↔
      a ∈ rows ∧ b ∈ rows ∧ time a < time b ∧ ∀ c ∈ rows, ¬ (time a < time c ∧ time c < time b) := by
  cases rows with
  | nil =>
    constructor
    · intro mem
      cases mem
    · rintro ⟨mem, _⟩
      cases mem
  | cons x rows =>
    rw [lag_cons, List.mem_cons, mem_zip_some sorted]
    simp

theorem lagOver_sorted {time : α → ι} {rows : List α} (distinct : (rows.map time).Nodup) :
    (rows.insertionSort fun a b => time a ≤ time b).Pairwise fun a b => time a < time b := by
  have total : Std.Total fun a b : α => time a ≤ time b := ⟨fun a b => le_total _ _⟩
  have trans : IsTrans α fun a b => time a ≤ time b := ⟨fun a b c => le_trans⟩
  have sorted := List.pairwise_insertionSort (fun a b => time a ≤ time b) rows
  have apart : (rows.insertionSort fun a b => time a ≤ time b).Pairwise
      fun a b => time a ≠ time b := by
    have perm := (List.perm_insertionSort (fun a b => time a ≤ time b) rows).map time
    exact List.pairwise_map.mp (perm.nodup_iff.mpr distinct)
  exact (sorted.and apart).imp fun both => lt_of_le_of_ne both.1 both.2

theorem map_snd_lagOver_perm (time : α → ι) (rows : List α) :
    ((lagOver time rows).map Prod.snd).Perm rows := by
  rw [lagOver, map_snd_lag]
  exact List.perm_insertionSort _ _

/-- Consecutive rows: no other row is in time between them. -/
theorem mem_lagOver {time : α → ι} {rows : List α} (distinct : (rows.map time).Nodup) {a b : α} :
    (some a, b) ∈ lagOver time rows ↔
      a ∈ rows ∧ b ∈ rows ∧ time a < time b ∧ ∀ c ∈ rows, ¬ (time a < time c ∧ time c < time b) := by
  rw [lagOver, mem_lag (lagOver_sorted distinct)]
  simp only [List.mem_insertionSort]

theorem newestBefore_of_consecutive {time : α → ι} {rows : List α}
    (distinct : (rows.map time).Nodup) {a b : α} (mem : a ∈ rows) (before : time a < time b)
    (between : ∀ c ∈ rows, ¬ (time a < time c ∧ time c < time b)) :
    newestBefore time rows (time b) = some a := by
  obtain ⟨c, found⟩ := newestBefore_some_of_mem mem before
  obtain ⟨held, earlier⟩ := newestBefore_mem found
  have newest := newestBefore_newest found mem before
  have same : time c = time a := by
    rcases lt_or_eq_of_le newest with less | same
    · exact absurd ⟨less, earlier⟩ (between c held)
    · exact same.symm
  rw [found, List.inj_on_of_nodup_map distinct held mem same]

/-- Rows with distinct times: beside each stands the newest one before it. -/
theorem mem_lagOver_iff {time : α → ι} {rows : List α} (distinct : (rows.map time).Nodup)
    {prev : Option α} {b : α} :
    (prev, b) ∈ lagOver time rows ↔ b ∈ rows ∧ newestBefore time rows (time b) = prev := by
  have forward {prev : Option α} (mem : (prev, b) ∈ lagOver time rows) {a : α}
      (found : newestBefore time rows (time b) = some a) : (some a, b) ∈ lagOver time rows := by
    obtain ⟨held, before⟩ := newestBefore_mem found
    have here : b ∈ rows :=
      (map_snd_lagOver_perm time rows).mem_iff.mp (List.mem_map_of_mem mem)
    refine (mem_lagOver distinct).mpr ⟨held, here, before, fun c other inside => ?_⟩
    exact absurd inside.1 (not_lt.mpr (newestBefore_newest found other inside.2))
  constructor
  · intro mem
    have here : b ∈ rows :=
      (map_snd_lagOver_perm time rows).mem_iff.mp (List.mem_map_of_mem mem)
    refine ⟨here, ?_⟩
    cases prev with
    | some a =>
      obtain ⟨held, _, before, between⟩ := (mem_lagOver distinct).mp mem
      exact newestBefore_of_consecutive distinct held before between
    | none =>
      cases found : newestBefore time rows (time b) with
      | none => rfl
      | some a =>
        have once : ((lagOver time rows).map Prod.snd).Nodup :=
          (map_snd_lagOver_perm time rows).nodup_iff.mpr (List.Nodup.of_map time distinct)
        have same := List.inj_on_of_nodup_map once mem (forward mem found) rfl
        cases same
  · rintro ⟨here, found⟩
    obtain ⟨row, mem, same⟩ :=
      List.mem_map.mp ((map_snd_lagOver_perm time rows).mem_iff.mpr here)
    obtain ⟨prev', b'⟩ := row
    cases same
    cases prev with
    | some a => exact forward mem found
    | none =>
      cases prev' with
      | none => exact mem
      | some a =>
        obtain ⟨held, _, before, _⟩ := (mem_lagOver distinct).mp mem
        obtain ⟨c, other⟩ := newestBefore_some_of_mem held before
        rw [found] at other
        cases other

theorem lagOver_eq {time : α → ι} {rows : List α} (distinct : (rows.map time).Nodup) :
    lagOver time rows = (rows.insertionSort fun a b => time a ≤ time b).map fun b =>
      (newestBefore time rows (time b), b) := by
  have beside : ∀ q ∈ lagOver time rows, (newestBefore time rows (time q.2), q.2) = q := by
    intro q mem
    rw [((mem_lagOver_iff distinct).mp mem).2]
  have seconds : (lagOver time rows).map Prod.snd =
      rows.insertionSort fun a b => time a ≤ time b := map_snd_lag _
  rw [← seconds, List.map_map]
  exact ((List.map_congr_left beside).trans (List.map_id _)).symm

end

/-- An aggregate that picks one of two values picks one of the rows' values, and one that stands
in its relation to all of them. -/
theorem foldl_select {op : ι → ι → ι} {r : ι → ι → Prop} (refl : ∀ a, r a a)
    (trans : ∀ a b c, r a b → r b c → r a c) (left : ∀ a b, r (op a b) a)
    (right : ∀ a b, r (op a b) b) (pick : ∀ a b, op a b = a ∨ op a b = b) (f : α → ι) (a : α)
    (rows : List α) :
    (∃ b ∈ a :: rows, f b = rows.foldl (fun m b => op m (f b)) (f a)) ∧
      ∀ b ∈ a :: rows, r (rows.foldl (fun m b => op m (f b)) (f a)) (f b) := by
  induction rows using List.reverseRecOn with
  | nil =>
    refine ⟨⟨a, List.mem_cons_self .., rfl⟩, fun b mem => ?_⟩
    rw [List.mem_singleton.mp mem]
    exact refl _
  | append_singleton rows c ih =>
    obtain ⟨⟨b, mem, value⟩, bound⟩ := ih
    rw [List.foldl_concat]
    constructor
    · rcases pick (rows.foldl (fun m b => op m (f b)) (f a)) (f c) with same | same
      · exact ⟨b, List.mem_append_left _ mem, value.trans same.symm⟩
      · exact ⟨c, by simp, same.symm⟩
    · intro d held
      rw [← List.cons_append, List.mem_append, List.mem_singleton] at held
      rcases held with old | rfl
      · exact trans _ _ _ (left _ _) (bound d old)
      · exact right _ _

end Relational
