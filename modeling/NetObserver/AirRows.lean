import Mathlib.Data.List.MinMax
import Mathlib.Data.List.Pairwise
import Mathlib.Data.List.Sort
import Mathlib.Tactic.Linarith
import NetObserver.ChannelSpan
import NetObserver.IntervalRows

/-! The bars of the air map: where each is placed on its band's axis, and the rows that they are
packed into. -/

namespace NetObserver

open IntervalRows

def axisW : ℚ := 560

def barGap : ℚ := 2

/-- The lowest number of the code's floats. -/
def f32Min : ℚ := -340282346638528859811704183484516925440

/-- A band placed on the axis: where it starts and how wide it is. -/
structure Bar where
  left : ℚ
  width : ℚ
  left_nonneg : 0 ≤ left
  width_pos : 0 < width
deriving DecidableEq

/-- Where a frequency is drawn, no further than the ends of the axis. -/
def toPx (axis : ℚ × ℚ) (mhz : ℚ) : ℚ :=
  min (max ((mhz - axis.1) / (axis.2 - axis.1) * axisW) 0) axisW

/-- `place` of a span whose extent can be told; a bar is never too narrow to be seen. -/
def FrequencyExtent.place (e : FrequencyExtent) (axis : ℚ × ℚ) : Option Bar :=
  if axis.2 - axis.1 ≤ 0 then none
  else some
    { left := toPx axis e.loMhz
      width := max (toPx axis e.hiMhz - toPx axis e.loMhz) (3 / 2)
      left_nonneg := le_min (le_max_right _ _) (by decide)
      width_pos := lt_of_lt_of_le (by norm_num) (le_max_right _ _) }

/-- The bars of a band's lanes, in the order the lanes are ranked. -/
def drawable (extents : List (Option FrequencyExtent)) (axis : ℚ × ℚ) : List Bar :=
  extents.filterMap fun e => e.bind fun e => e.place axis

/-- Where each row ends, and the rows given so far. -/
structure Packing where
  ends : List ℚ
  rows : List Nat

/-- One round of the loop: the first row that is free where the bar starts, or a new one. -/
def Packing.place (p : Packing) (i : Nat) (bar : Bar) : Packing :=
  let row := (p.ends.findIdx? fun e => e + barGap ≤ bar.left).getD p.ends.length
  let ends := if row = p.ends.length then p.ends ++ [f32Min] else p.ends
  ⟨ends.modify row fun e => max e (bar.left + bar.width), p.rows.set i row⟩

def leftAt (placed : List Bar) (i : Nat) : ℚ := (placed[i]?.map Bar.left).getD 0

/-- The places of the list in the order of the bars' starts, equal ones as they are given. -/
def startOrder (placed : List Bar) : List Nat :=
  (List.range placed.length).mergeSort fun a b => decide (leftAt placed a ≤ leftAt placed b)

def packStep (placed : List Bar) (p : Packing) (i : Nat) : Packing :=
  match placed[i]? with
  | some bar => p.place i bar
  | none => p

def packRows (placed : List Bar) : List Nat :=
  ((startOrder placed).foldl (packStep placed) ⟨[], List.replicate placed.length 0⟩).rows

def barRowCount (rows : List Nat) : Nat := rows.max?.elim 0 (· + 1)

/-- Where a bar ends with the gap behind it. -/
def Bar.stop (b : Bar) : ℚ := b.left + b.width + barGap

/-- Two bars of one row are at least the gap apart. -/
def SeparatedRows (placed : List Bar) (rows : List Nat) : Prop :=
  ∀ (i j : Nat) (a b : Bar) (r : Nat), i ≠ j → placed[i]? = some a → placed[j]? = some b →
    rows[i]? = some r → rows[j]? = some r → Apart Bar.left Bar.stop a b

/-- How many bars, each with the gap behind it, share a point. -/
def crowd (placed : List Bar) (x : ℚ) : Nat := placed.countP (covers Bar.left Bar.stop x)

/-- Rows for every bar, those of one row apart, numbered without a hole, and no more of them than
bars share a point, which no other such rows can be. -/
structure PacksTightly (placed : List Bar) (rows : List Nat) : Prop where
  each : rows.length = placed.length
  separated : SeparatedRows placed rows
  used : ∀ r, r ∈ rows ↔ r < barRowCount rows
  greatest : IsGreatest (Set.range (crowd placed)) (barRowCount rows)
  least : IsLeast {n | ∃ other : List Nat, other.length = placed.length ∧
    SeparatedRows placed other ∧ other.dedup.length = n} (barRowCount rows)

def stopAt (placed : List Bar) (i : Nat) : ℚ := (placed[i]?.map Bar.stop).getD 0

variable {placed : List Bar}

theorem Bar.left_lt_stop (b : Bar) : b.left < b.stop := by
  have width := b.width_pos
  unfold stop barGap
  linarith

namespace Packing

variable {p : Packing} {i row : Nat} {bar : Bar}

/-- A bar that takes a row ends it. -/
theorem place_free (found : p.ends.findIdx? (fun e => decide (e + barGap ≤ bar.left)) = some row) :
    (p.place i bar).ends.map (· + barGap) = (p.ends.map (· + barGap)).set row bar.stop ∧
      (p.place i bar).rows = p.rows.set i row := by
  obtain ⟨inside, free, _⟩ := List.findIdx?_eq_some_iff_getElem.mp found
  rw [decide_eq_true_eq] at free
  have width := bar.width_pos
  have later : max p.ends[row] (bar.left + bar.width) = bar.left + bar.width := by
    unfold barGap at free
    exact max_eq_right (by linarith)
  unfold place
  dsimp only
  rw [found, Option.getD_some, if_neg (by omega)]
  refine ⟨?_, rfl⟩
  rw [List.modify_eq_set_getElem?, List.getElem?_eq_getElem inside]
  dsimp only [Option.map_eq_map, Option.map_some, Option.getD_some]
  rw [later, List.map_set]
  rfl

/-- A bar for which no row is free has one behind them. -/
theorem place_full (found : p.ends.findIdx? (fun e => decide (e + barGap ≤ bar.left)) = none) :
    (p.place i bar).ends.map (· + barGap) = p.ends.map (· + barGap) ++ [bar.stop] ∧
      (p.place i bar).rows = p.rows.set i p.ends.length := by
  have width := bar.width_pos
  have nonneg := bar.left_nonneg
  have lowest : max f32Min (bar.left + bar.width) = bar.left + bar.width := by
    unfold f32Min
    exact max_eq_right (by linarith)
  unfold place
  dsimp only
  rw [found, Option.getD_none, if_pos rfl]
  refine ⟨?_, rfl⟩
  rw [List.modify_eq_set_getElem?, List.getElem?_concat_length]
  dsimp only [Option.map_eq_map, Option.map_some, Option.getD_some]
  rw [lowest, List.set_append_right _ _ (Nat.le_refl _), Nat.sub_self, List.map_append]
  rfl

end Packing

/-- What holds after the bars of some places: each has a row, and the rows end where the last of
theirs ends. -/
structure Packed (placed : List Bar) (seated : List (Nat × Nat)) (p : Packing) : Prop where
  seats : Seated (leftAt placed) (stopAt placed) (p.ends.map (· + barGap)) seated
  length : p.rows.length = placed.length
  given : ∀ q ∈ seated, p.rows[q.1]? = some q.2

/-- A row given to a bar changes no other's. -/
theorem Packed.give {seated : List (Nat × Nat)} {p : Packing} (packed : Packed placed seated p)
    {i : Nat} (bound : i < placed.length) (fresh : ∀ q ∈ seated, q.1 ≠ i) (row : Nat) :
    (p.rows.set i row).length = placed.length ∧
      ∀ q ∈ seated ++ [(i, row)], (p.rows.set i row)[q.1]? = some q.2 := by
  rw [List.length_set]
  refine ⟨packed.length, ?_⟩
  intro q mem
  rcases List.mem_append.mp mem with old | new
  · rw [List.getElem?_set_ne (Ne.symm (fresh q old))]
    exact packed.given q old
  · rw [List.mem_singleton.mp new]
    exact List.getElem?_set_self (by rw [packed.length]; exact bound)

/-- A bar that is not in front of the ones before gets the next seat. -/
theorem Packed.place {seated : List (Nat × Nat)} {p : Packing} (packed : Packed placed seated p)
    {i : Nat} {bar : Bar} (at_ : placed[i]? = some bar) (fresh : ∀ q ∈ seated, q.1 ≠ i)
    (sorted : ∀ q ∈ seated, leftAt placed q.1 ≤ leftAt placed i) :
    ∃ row, Packed placed (seated ++ [(i, row)]) (p.place i bar) := by
  have left : leftAt placed i = bar.left := by rw [leftAt, at_]; rfl
  have stop : stopAt placed i = bar.stop := by rw [stopAt, at_]; rfl
  have proper : leftAt placed i < stopAt placed i := by
    rw [left, stop]
    exact bar.left_lt_stop
  have given := packed.give (List.getElem?_eq_some_iff.mp at_).1 fresh
  cases found : p.ends.findIdx? fun e => decide (e + barGap ≤ bar.left) with
  | some row =>
    obtain ⟨ends, rows⟩ := Packing.place_free (i := i) found
    obtain ⟨inside, free, _⟩ := List.findIdx?_eq_some_iff_getElem.mp found
    rw [decide_eq_true_eq, ← left] at free
    have ended : (p.ends.map (· + barGap))[row]? = some (p.ends[row] + barGap) := by
      rw [List.getElem?_map, List.getElem?_eq_getElem inside]
      rfl
    refine ⟨row, ?_, rows ▸ (given row).1, rows ▸ (given row).2⟩
    rw [ends, ← stop]
    exact packed.seats.reuse proper ended free
  | none =>
    obtain ⟨ends, rows⟩ := Packing.place_full (i := i) found
    have full : ∀ e ∈ p.ends.map (· + barGap), leftAt placed i < e := by
      intro e mem
      obtain ⟨e', own, rfl⟩ := List.mem_map.mp mem
      have taken := List.findIdx?_eq_none_iff.mp found e' own
      rw [decide_eq_false_iff_not, not_le] at taken
      rw [left]
      exact taken
    have opened := packed.seats.open_ proper sorted full
    rw [List.length_map] at opened
    refine ⟨p.ends.length, ?_, rows ▸ (given _).1, rows ▸ (given _).2⟩
    rw [ends, ← stop]
    exact opened

/-- The loop over places in order of their starts seats each. -/
theorem Packed.fold {todo : List Nat} {seated : List (Nat × Nat)} {p : Packing}
    (packed : Packed placed seated p) (bound : ∀ i ∈ todo, i < placed.length)
    (distinct : (seated.map Prod.fst ++ todo).Nodup)
    (sorted : (seated.map Prod.fst ++ todo).Pairwise fun a b => leftAt placed a ≤ leftAt placed b) :
    ∃ all : List (Nat × Nat), all.map Prod.fst = seated.map Prod.fst ++ todo ∧
      Packed placed all (todo.foldl (packStep placed) p) := by
  induction todo generalizing seated p with
  | nil => exact ⟨seated, (List.append_nil _).symm, packed⟩
  | cons i todo ih =>
    have inside : i < placed.length := bound i List.mem_cons_self
    have at_ : placed[i]? = some placed[i] := List.getElem?_eq_getElem inside
    have fresh : ∀ q ∈ seated, q.1 ≠ i := by
      intro q mem same
      have apart := (List.nodup_append.mp distinct).2.2 q.1 (List.mem_map_of_mem mem) i
        List.mem_cons_self
      exact apart same
    have before : ∀ q ∈ seated, leftAt placed q.1 ≤ leftAt placed i := by
      intro q mem
      exact (List.pairwise_append.mp sorted).2.2 q.1 (List.mem_map_of_mem mem) i List.mem_cons_self
    obtain ⟨row, next⟩ := packed.place at_ fresh before
    have split : (seated ++ [(i, row)]).map Prod.fst ++ todo = seated.map Prod.fst ++ i :: todo := by
      rw [List.map_append, List.append_assoc]
      rfl
    rw [← split] at distinct sorted ⊢
    have step : packStep placed p i = p.place i placed[i] := by rw [packStep, at_]
    rw [List.foldl_cons, step]
    exact ih next (fun j mem => bound j (List.mem_cons_of_mem _ mem)) distinct sorted

theorem startOrder_perm (placed : List Bar) : (startOrder placed).Perm (List.range placed.length) :=
  List.mergeSort_perm _ _

/-- Every bar has a seat in the end. -/
theorem exists_packed (placed : List Bar) : ∃ (seated : List (Nat × Nat)) (p : Packing),
    p.rows = packRows placed ∧ Packed placed seated p ∧
      (seated.map Prod.fst).Perm (List.range placed.length) := by
  have perm := startOrder_perm placed
  have sorted : (startOrder placed).Pairwise fun a b => leftAt placed a ≤ leftAt placed b := by
    have transitive : ∀ a b c : Nat, decide (leftAt placed a ≤ leftAt placed b) = true →
        decide (leftAt placed b ≤ leftAt placed c) = true →
        decide (leftAt placed a ≤ leftAt placed c) = true := by
      intro a b c ab bc
      rw [decide_eq_true_eq] at ab bc ⊢
      exact le_trans ab bc
    have total : ∀ a b : Nat, (decide (leftAt placed a ≤ leftAt placed b) ||
        decide (leftAt placed b ≤ leftAt placed a)) = true := by
      intro a b
      rw [Bool.or_eq_true, decide_eq_true_eq, decide_eq_true_eq]
      exact le_total _ _
    have pairs := List.pairwise_mergeSort transitive total (List.range placed.length)
    exact pairs.imp fun le => of_decide_eq_true le
  have empty : Packed placed [] ⟨[], List.replicate placed.length 0⟩ :=
    ⟨Seated.empty, List.length_replicate, fun _ mem => nomatch mem⟩
  have bound : ∀ i ∈ startOrder placed, i < placed.length :=
    fun i mem => List.mem_range.mp (perm.mem_iff.mp mem)
  obtain ⟨all, keys, packed⟩ := empty.fold bound (perm.nodup_iff.mpr List.nodup_range) sorted
  refine ⟨all, _, rfl, packed, ?_⟩
  rw [keys]
  exact perm

theorem barRowCount_eq {rows : List Nat} {k : Nat} (used : ∀ r, r ∈ rows ↔ r < k) :
    barRowCount rows = k := by
  unfold barRowCount
  cases k with
  | zero =>
    have empty : rows = [] := List.eq_nil_iff_forall_not_mem.mpr fun r mem =>
      Nat.not_lt_zero r ((used r).mp mem)
    rw [empty]
    rfl
  | succ m =>
    have last : rows.max? = some m := by
      rw [List.max?_eq_some_iff]
      refine ⟨(used m).mpr (Nat.lt_succ_self m), fun r mem => ?_⟩
      exact Nat.le_of_lt_succ ((used r).mp mem)
    rw [last]
    rfl

theorem countP_range {α : Type} (q : α → Bool) (list : List α) :
    list.countP q = ((List.range list.length).filter fun i => (list[i]?.map q).getD false).length := by
  rw [← List.countP_eq_length_filter]
  induction list with
  | nil => rfl
  | cons a rest ih =>
    rw [List.length_cons, List.range_succ_eq_map, List.countP_cons, List.countP_cons,
      List.countP_map, ih]
    rfl

/-- The crowd at a point, by the places of its bars. -/
theorem crowd_eq (placed : List Bar) (x : ℚ) : crowd placed x =
    ((List.range placed.length).filter (covers (leftAt placed) (stopAt placed) x)).length := by
  unfold crowd
  rw [countP_range]
  congr 1
  apply List.filter_congr
  intro i mem
  have inside : i < placed.length := List.mem_range.mp mem
  have at_ : placed[i]? = some placed[i] := List.getElem?_eq_getElem inside
  unfold covers leftAt stopAt
  rw [at_]
  rfl

/-- No point is in more bars than separated rows have numbers. -/
theorem crowd_le {other : List Nat} (each : other.length = placed.length)
    (separated : SeparatedRows placed other) (x : ℚ) : crowd placed x ≤ other.dedup.length := by
  let colour : Nat → Nat := fun i => other[i]?.getD 0
  have colours : (List.range placed.length).map colour = other := by
    rw [← each]
    apply List.ext_getElem?
    intro i
    by_cases inside : i < other.length
    · rw [List.getElem?_map, List.getElem?_range inside, Option.map_some]
      simp only [colour, List.getElem?_eq_getElem inside, Option.getD_some]
    · rw [List.getElem?_eq_none (by simpa using inside), List.getElem?_eq_none (by omega)]
  rw [crowd_eq, ← colours]
  apply covering_le_colours List.nodup_range
  intro i mi j mj apart same
  rw [List.mem_range] at mi mj
  have ai : placed[i]? = some placed[i] := List.getElem?_eq_getElem mi
  have aj : placed[j]? = some placed[j] := List.getElem?_eq_getElem mj
  have ri : other[i]? = some (colour i) := by
    simp only [colour, List.getElem?_eq_getElem (each ▸ mi), Option.getD_some]
  have rj : other[j]? = some (colour i) := by
    rw [same]
    simp only [colour, List.getElem?_eq_getElem (each ▸ mj), Option.getD_some]
  have bars := separated i j placed[i] placed[j] (colour i) apart ai aj ri rj
  unfold Apart leftAt stopAt
  rw [ai, aj]
  exact bars

/-- Two items of a list that is pairwise related are related one way or the other. -/
theorem related_of_pairwise {α : Type} {R : α → α → Prop} {list : List α} (pairs : list.Pairwise R)
    {a b : α} (ma : a ∈ list) (mb : b ∈ list) (other : a ≠ b) : R a b ∨ R b a := by
  have symmetric : Std.Symm fun a b => R a b ∨ R b a := ⟨fun _ _ either => either.symm⟩
  exact (pairs.imp fun r => Or.inl r : list.Pairwise fun a b => R a b ∨ R b a).forall ma mb other

namespace Packed

variable {seated : List (Nat × Nat)} {p : Packing} (packed : Packed placed seated p)
  (keys : (seated.map Prod.fst).Perm (List.range placed.length))

include packed keys

/-- A row is that of the place's seat. -/
theorem seat_of_row {i r : Nat} (found : p.rows[i]? = some r) : (i, r) ∈ seated := by
  have inside : i < placed.length := by
    rw [← packed.length]
    exact (List.getElem?_eq_some_iff.mp found).1
  obtain ⟨q, own, rfl⟩ := List.mem_map.mp (keys.mem_iff.mpr (List.mem_range.mpr inside))
  have same := packed.given q own
  rw [found] at same
  cases same
  exact own

theorem separated : SeparatedRows placed p.rows := by
  intro i j a b r other ai bj ri rj
  have seats : (i, r) ≠ (j, r) := fun same => other (congrArg Prod.fst same)
  have either := related_of_pairwise packed.seats.apart (packed.seat_of_row keys ri)
    (packed.seat_of_row keys rj) seats
  unfold leftAt stopAt at either
  dsimp only at either
  rw [ai, bj] at either
  rcases either with before | behind
  · exact Or.inl (before rfl)
  · exact Or.inr (behind rfl)

theorem used (r : Nat) : r ∈ p.rows ↔ r < p.ends.length := by
  constructor
  · intro mem
    obtain ⟨i, found⟩ := List.mem_iff_getElem?.mp mem
    obtain ⟨e, held, _⟩ := packed.seats.within _ (packed.seat_of_row keys found)
    have bound := (List.getElem?_eq_some_iff.mp held).1
    rw [List.length_map] at bound
    exact bound
  · intro bound
    have held : (p.ends.map (· + barGap))[r]? = some (p.ends[r] + barGap) := by
      rw [List.getElem?_map, List.getElem?_eq_getElem bound]
      rfl
    obtain ⟨q, own, same, _⟩ := packed.seats.reached r _ held
    have found := packed.given q own
    rw [same] at found
    exact List.mem_of_getElem? found

theorem numbers : p.rows.dedup.length = p.ends.length := by
  have same : p.rows.dedup.Perm (List.range p.ends.length) := by
    rw [List.perm_ext_iff_of_nodup (List.nodup_dedup _) List.nodup_range]
    intro r
    rw [List.mem_dedup, List.mem_range, packed.used keys]
  rw [same.length_eq, List.length_range]

/-- As many bars as there are rows share a point. -/
theorem exists_crowd : ∃ x, p.ends.length ≤ crowd placed x := by
  by_cases empty : p.ends = []
  · refine ⟨0, ?_⟩
    rw [empty]
    exact Nat.zero_le _
  · have some_ : p.ends.map (· + barGap) ≠ [] := fun none_ => empty (List.map_eq_nil_iff.mp none_)
    obtain ⟨x, many⟩ := packed.seats.crowded some_
    have same : (seated.filter fun q => covers (leftAt placed) (stopAt placed) x q.1).length =
        crowd placed x := by
      rw [crowd_eq, ← (keys.filter _).length_eq, List.filter_map, List.length_map]
      rfl
    rw [List.length_map, same] at many
    exact ⟨x, many⟩

theorem tight : PacksTightly placed p.rows := by
  have count : barRowCount p.rows = p.ends.length := barRowCount_eq (packed.used keys)
  have apart := packed.separated keys
  have most (x : ℚ) : crowd placed x ≤ p.ends.length := by
    rw [← packed.numbers keys]
    exact crowd_le packed.length apart x
  obtain ⟨x, many⟩ := packed.exists_crowd keys
  refine ⟨packed.length, apart, ?_, ⟨⟨x, ?_⟩, ?_⟩, ⟨⟨p.rows, packed.length, apart, ?_⟩, ?_⟩⟩
  · intro r
    rw [count, packed.used keys]
  · rw [count]
    exact Nat.le_antisymm (most x) many
  · rintro _ ⟨y, rfl⟩
    rw [count]
    exact most y
  · rw [packed.numbers keys, count]
  · rintro _ ⟨other, length, own, rfl⟩
    rw [count]
    exact Nat.le_trans many (crowd_le length own x)

end Packed

theorem packRows_isTight (placed : List Bar) : PacksTightly placed (packRows placed) := by
  obtain ⟨seated, p, rows, packed, keys⟩ := exists_packed placed
  rw [← rows]
  exact packed.tight keys

theorem barRowCount_perm {ranked : List Bar} (perm : ranked.Perm placed) :
    barRowCount (packRows ranked) = barRowCount (packRows placed) := by
  have same : crowd ranked = crowd placed := funext fun x => perm.countP_eq _
  have greatest := (packRows_isTight ranked).greatest
  rw [same] at greatest
  exact greatest.unique (packRows_isTight placed).greatest

/-- However the bars are ranked, their rows are tight, and as many. -/
theorem pack_rows_tight (placed : List Bar) : PacksTightly placed (packRows placed) ∧
    ∀ ranked : List Bar, ranked.Perm placed →
      barRowCount (packRows ranked) = barRowCount (packRows placed) :=
  ⟨packRows_isTight placed, fun _ perm => barRowCount_perm perm⟩

/-- The rows of a band are as many in whatever order its lanes are ranked. -/
theorem barRowCount_lanes {lanes ranked : List (Option FrequencyExtent)} (perm : ranked.Perm lanes)
    (axis : ℚ × ℚ) :
    barRowCount (packRows (drawable ranked axis)) = barRowCount (packRows (drawable lanes axis)) :=
  barRowCount_perm (perm.filterMap _)

end NetObserver
