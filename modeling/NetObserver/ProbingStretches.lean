import NetObserver.RecordQueries

/-! The stretches of withheld probes against the time whose tier is passive. -/

namespace NetObserver

open Relational

/-- The newest probing edge at or before the instant is passive. -/
def PassiveAt (edges : List ProbingEdgeRow) (t : Int) : Prop :=
  ∃ e, asOf ProbingEdgeRow.tsUs edges t = some e ∧ e.tier = .passive

/-- The first active edge after an instant. -/
structure FirstActive (edges : List ProbingEdgeRow) (t : Int) (a : ProbingEdgeRow) : Prop where
  edge : a ∈ edges
  active : a.tier = .active
  after : t < a.tsUs
  first : ∀ b ∈ edges, b.tier = .active → t < b.tsUs → a.tsUs ≤ b.tsUs

/-- A passive edge that continues no passive edge before it. -/
structure Opener (edges : List ProbingEdgeRow) (e : ProbingEdgeRow) : Prop where
  edge : e ∈ edges
  passive : e.tier = .passive
  fresh : ∀ p, newestBefore ProbingEdgeRow.tsUs edges e.tsUs = some p → p.tier = .active

namespace SilenceRow

def span (s : SilenceRow) : HalfOpen := ⟨s.gapOpenedUs, s.gapClosedUs⟩

/-- A row that runs from its opener to the first active edge after it. -/
structure Spans (edges : List ProbingEdgeRow) (s : SilenceRow) (e : ProbingEdgeRow) : Prop where
  opener : Opener edges e
  opened : s.gapOpenedUs = e.tsUs
  unclosed : s.gapClosedUs = none →
    s.gapClosedBy = none ∧ ∀ a ∈ edges, a.tier = .active → a.tsUs ≤ e.tsUs
  closed : ∀ c, s.gapClosedUs = some c →
    ∃ a, FirstActive edges e.tsUs a ∧ a.tsUs = c ∧ s.gapClosedBy = some a.closedBy

end SilenceRow

section

variable {edges : List ProbingEdgeRow} {e f : ProbingEdgeRow} {s u : SilenceRow} {t : Int}

theorem ProbingTier.not_passive {tier : ProbingTier} : tier ≠ .passive ↔ tier = .active := by
  cases tier <;> simp

theorem probingEdge_of_same_ts (distinct : (edges.map ProbingEdgeRow.tsUs).Nodup)
    (me : e ∈ edges) (mf : f ∈ edges) (same : e.tsUs = f.tsUs) : e = f :=
  List.inj_on_of_nodup_map distinct me mf same

theorem FirstActive.unique {a b : ProbingEdgeRow}
    (distinct : (edges.map ProbingEdgeRow.tsUs).Nodup) (first : FirstActive edges t a)
    (other : FirstActive edges t b) : a = b := by
  have le := first.first b other.edge other.active other.after
  have ge := other.first a first.edge first.active first.after
  exact probingEdge_of_same_ts distinct first.edge other.edge (by omega)

theorem mem_stretchOpeners (distinct : (edges.map ProbingEdgeRow.tsUs).Nodup) {opened : Int} :
    opened ∈ stretchOpeners edges ↔ ∃ e, Opener edges e ∧ e.tsUs = opened := by
  unfold stretchOpeners
  rw [List.mem_filterMap]
  constructor
  · rintro ⟨⟨prev, e⟩, mem, found⟩
    obtain ⟨edge, before⟩ := (mem_lagOver_iff distinct).mp mem
    split at found
    next opens =>
      refine ⟨e, ⟨edge, opens.1, fun p newest => ?_⟩, Option.some.inj found⟩
      have same : prev = some p := before.symm.trans newest
      have other := opens.2
      rw [same, Option.all_some, decide_eq_true_eq] at other
      exact ProbingTier.not_passive.mp other
    next => cases found
  · rintro ⟨e, opener, rfl⟩
    refine ⟨(_, e), (mem_lagOver_iff distinct).mpr ⟨opener.edge, rfl⟩, if_pos ⟨opener.passive, ?_⟩⟩
    rw [Option.all_eq_true]
    intro p newest
    exact decide_eq_true (ProbingTier.not_passive.mpr (opener.fresh p newest))

theorem spans_of_mem (distinct : (edges.map ProbingEdgeRow.tsUs).Nodup)
    (mem : s ∈ probingStretch edges) : ∃ e, s.Spans edges e := by
  obtain ⟨⟨opened, closer⟩, numbered, rfl⟩ := List.mem_map.mp mem
  obtain ⟨joined, newest⟩ := mem_firstOfEach numbered
  have matched {b : ProbingEdgeRow} (edge : b ∈ edges) (active : b.tier = .active) :
      b ∈ edges.filter fun e => e.tier == .active :=
    List.mem_filter.mpr ⟨edge, by simp [active]⟩
  cases closer with
  | none =>
    obtain ⟨held, unmatched⟩ := mem_leftJoin_none.mp joined
    obtain ⟨e, opener, rfl⟩ := (mem_stretchOpeners distinct).mp held
    refine ⟨e, opener, rfl, fun _ => ⟨rfl, fun a edge active => ?_⟩, fun c closed => by cases closed⟩
    have apart := of_decide_eq_false (unmatched a (matched edge active))
    omega
  | some a =>
    obtain ⟨held, found, after⟩ := mem_leftJoin_some.mp joined
    obtain ⟨e, opener, rfl⟩ := (mem_stretchOpeners distinct).mp held
    obtain ⟨edge, active⟩ := List.mem_filter.mp found
    refine ⟨e, opener, rfl, (fun unclosed => by cases unclosed), fun c closed => ?_⟩
    refine ⟨a, ⟨edge, by simpa using active, of_decide_eq_true after, ?_⟩,
      Option.some.inj closed, rfl⟩
    intro b other on later
    have row : (e.tsUs, some b) ∈ leftJoin (fun opened e => decide (opened < e.tsUs))
        (stretchOpeners edges) (edges.filter fun e => e.tier == .active) :=
      mem_leftJoin_some.mpr ⟨held, matched other on, decide_eq_true later⟩
    exact WithTop.coe_le_coe.mp (newest (e.tsUs, some b) row rfl)

theorem exists_stretch (distinct : (edges.map ProbingEdgeRow.tsUs).Nodup)
    (opener : Opener edges e) : ∃ s ∈ probingStretch edges, s.gapOpenedUs = e.tsUs := by
  have held := (mem_stretchOpeners distinct).mpr ⟨e, opener, rfl⟩
  have joined : ∃ closer, (e.tsUs, closer) ∈
      leftJoin (fun opened e => decide (opened < e.tsUs)) (stretchOpeners edges)
        (edges.filter fun e => e.tier == .active) := by
    by_cases any : ∃ a ∈ edges.filter fun e => e.tier == .active, e.tsUs < a.tsUs
    · obtain ⟨a, found, after⟩ := any
      exact ⟨some a, mem_leftJoin_some.mpr ⟨held, found, decide_eq_true after⟩⟩
    · refine ⟨none, mem_leftJoin_none.mpr ⟨held, fun a found => ?_⟩⟩
      exact decide_eq_false fun after => any ⟨a, found, after⟩
  obtain ⟨closer, joined⟩ := joined
  have numbered : ∃ row ∈ firstOfEach Prod.fst stretchOrder
      (leftJoin (fun opened e => decide (opened < e.tsUs)) (stretchOpeners edges)
        (edges.filter fun e => e.tier == .active)), row.1 = e.tsUs := exists_firstOfEach joined
  obtain ⟨row, mem, same⟩ := numbered
  exact ⟨_, List.mem_map_of_mem mem, same⟩

theorem probingStretch_opened_nodup (edges : List ProbingEdgeRow) :
    ((probingStretch edges).map SilenceRow.gapOpenedUs).Nodup := by
  rw [probingStretch, List.map_map]
  exact firstOfEach_keys_nodup _ _ _

/-- Before the later of two stretches stands an active edge behind the earlier one's opener. -/
theorem active_between (distinct : (edges.map ProbingEdgeRow.tsUs).Nodup) (first : Opener edges e)
    (second : Opener edges f) (order : e.tsUs < f.tsUs) :
    ∃ a ∈ edges, a.tier = .active ∧ e.tsUs < a.tsUs ∧ a.tsUs < f.tsUs := by
  obtain ⟨a, found⟩ := newestBefore_some_of_mem first.edge order
  obtain ⟨edge, before⟩ := newestBefore_mem found
  have active := second.fresh a found
  have newest := newestBefore_newest found first.edge order
  refine ⟨a, edge, active, ?_, before⟩
  have apart : e.tsUs ≠ a.tsUs := by
    intro same
    have eq := probingEdge_of_same_ts distinct first.edge edge same
    have passive := first.passive
    rw [eq, active] at passive
    cases passive
  omega

theorem closed_by_active (spans : s.Spans edges e) {a : ProbingEdgeRow} (edge : a ∈ edges)
    (active : a.tier = .active) (after : e.tsUs < a.tsUs) :
    ∃ c, s.gapClosedUs = some c ∧ c ≤ a.tsUs := by
  cases closed : s.gapClosedUs with
  | none =>
    have before := (spans.unclosed closed).2 a edge active
    omega
  | some c =>
    obtain ⟨b, first, rfl, _⟩ := spans.closed c closed
    exact ⟨b.tsUs, rfl, first.first a edge active after⟩

theorem stretches_apart (distinct : (edges.map ProbingEdgeRow.tsUs).Nodup)
    (first : s.Spans edges e) (second : u.Spans edges f) (order : e.tsUs < f.tsUs) :
    s.span.Apart u.span := by
  obtain ⟨a, edge, active, after, before⟩ :=
    active_between distinct first.opener second.opener order
  obtain ⟨c, closed, bound⟩ := closed_by_active first edge active after
  rintro t ⟨inside, later⟩
  have upper := inside.2 c closed
  have lower : u.gapOpenedUs ≤ t := later.1
  rw [second.opened] at lower
  omega

/-- Inside a stretch no active edge lies between the opener and the instant. -/
theorem passiveAt_of_contains (distinct : (edges.map ProbingEdgeRow.tsUs).Nodup)
    (spans : s.Spans edges e) (inside : s.span.Contains t) : PassiveAt edges t := by
  have lower : s.gapOpenedUs ≤ t := inside.1
  rw [spans.opened] at lower
  obtain ⟨f, found⟩ := asOf_some_of_mem spans.opener.edge lower
  obtain ⟨edge, before⟩ := asOf_mem found
  have newest := asOf_newest found spans.opener.edge lower
  refine ⟨f, found, ?_⟩
  by_contra other
  have active := ProbingTier.not_passive.mp other
  have apart : e.tsUs ≠ f.tsUs := by
    intro same
    rw [← probingEdge_of_same_ts distinct spans.opener.edge edge same] at other
    exact other spans.opener.passive
  obtain ⟨c, closed, bound⟩ := closed_by_active spans edge active (by omega)
  have upper := inside.2 c closed
  omega

/-- The run of passive edges that ends at a passive one begins at an opener. -/
theorem exists_opener (distinct : (edges.map ProbingEdgeRow.tsUs).Nodup) (edge : f ∈ edges)
    (passive : f.tier = .passive) :
    ∃ e, Opener edges e ∧ e.tsUs ≤ f.tsUs ∧
      ∀ a ∈ edges, a.tier = .active → e.tsUs < a.tsUs → f.tsUs < a.tsUs := by
  -- Of the passive edges that no active one parts from `f`, the earliest.
  let run := edges.filter fun e => e.tier = .passive ∧ e.tsUs ≤ f.tsUs ∧
    ∀ a ∈ edges, a.tier = .active → e.tsUs < a.tsUs → f.tsUs < a.tsUs
  have here : f ∈ run :=
    List.mem_filter.mpr ⟨edge, decide_eq_true ⟨passive, le_refl _, fun _ _ _ after => after⟩⟩
  cases found : run.argmin ProbingEdgeRow.tsUs with
  | none =>
    rw [List.argmin_eq_none.mp found] at here
    cases here
  | some e =>
    obtain ⟨mem, joined⟩ := List.mem_filter.mp (List.argmin_mem found)
    obtain ⟨quiet, before, unparted⟩ := of_decide_eq_true joined
    refine ⟨e, ⟨mem, quiet, fun p newest => ?_⟩, before, unparted⟩
    obtain ⟨held, earlier⟩ := newestBefore_mem newest
    by_contra other
    have still : p.tier = .passive := not_not.mp (mt ProbingTier.not_passive.mp other)
    have reached : p ∈ run := by
      refine List.mem_filter.mpr ⟨held, decide_eq_true ⟨still, by omega, fun a on active after => ?_⟩⟩
      by_cases past : e.tsUs < a.tsUs
      · exact unparted a on active past
      · have apart : a.tsUs ≠ e.tsUs := by
          intro same
          rw [probingEdge_of_same_ts distinct on mem same, quiet] at active
          cases active
        have between := newestBefore_newest newest on (by omega)
        omega
    have least := List.le_of_mem_argmin reached found
    omega

theorem contains_of_passiveAt (distinct : (edges.map ProbingEdgeRow.tsUs).Nodup)
    (passive : PassiveAt edges t) : ∃ s ∈ probingStretch edges, s.span.Contains t := by
  obtain ⟨f, found, quiet⟩ := passive
  obtain ⟨edge, before⟩ := asOf_mem found
  obtain ⟨e, opener, order, unparted⟩ := exists_opener distinct edge quiet
  obtain ⟨s, mem, opened⟩ := exists_stretch distinct opener
  obtain ⟨g, spans⟩ := spans_of_mem distinct mem
  have same : g.tsUs = e.tsUs := spans.opened.symm.trans opened
  refine ⟨s, mem, ?_, fun c closed => ?_⟩
  · show s.gapOpenedUs ≤ t
    omega
  · obtain ⟨a, first, rfl, _⟩ := spans.closed c closed
    have after := first.after
    have past := unparted a first.edge first.active (by omega)
    by_contra late
    have newest := asOf_newest found first.edge (by omega)
    omega

theorem open_iff_holds_newest (spans : s.Spans edges e)
    (newest : newestOf ProbingEdgeRow.tsUs edges = some f) :
    s.gapClosedUs = none ↔ s.span.Contains f.tsUs := by
  have last {b : ProbingEdgeRow} (edge : b ∈ edges) : b.tsUs ≤ f.tsUs :=
    List.le_of_mem_argmax edge newest
  have lower := last spans.opener.edge
  constructor
  · intro unclosed
    refine ⟨?_, fun c closed => ?_⟩
    · show s.gapOpenedUs ≤ f.tsUs
      rw [spans.opened]
      exact lower
    · have both : s.gapClosedUs = some c := closed
      rw [unclosed] at both
      cases both
  · intro inside
    cases closed : s.gapClosedUs with
    | none => rfl
    | some c =>
      obtain ⟨a, first, rfl, _⟩ := spans.closed c closed
      have upper := inside.2 a.tsUs closed
      have bound := last first.edge
      omega

theorem passiveAt_newest (distinct : (edges.map ProbingEdgeRow.tsUs).Nodup)
    (newest : newestOf ProbingEdgeRow.tsUs edges = some f) :
    PassiveAt edges f.tsUs ↔ f.tier = .passive := by
  have mem := newestOf_mem newest
  obtain ⟨e, found⟩ := asOf_some_of_mem mem (le_refl f.tsUs)
  obtain ⟨edge, before⟩ := asOf_mem found
  have after := asOf_newest found mem (le_refl f.tsUs)
  have same := probingEdge_of_same_ts distinct edge mem (by omega)
  rw [same] at found
  constructor
  · rintro ⟨g, other, passive⟩
    rw [found] at other
    rw [Option.some.inj other]
    exact passive
  · intro passive
    exact ⟨f, found, passive⟩

/-- Some stretch is open-ended exactly when the record ends passive. -/
theorem exists_open_iff (distinct : (edges.map ProbingEdgeRow.tsUs).Nodup) :
    (∃ s ∈ probingStretch edges, s.gapClosedUs = none) ↔
      ∃ f, newestOf ProbingEdgeRow.tsUs edges = some f ∧ f.tier = .passive := by
  constructor
  · rintro ⟨s, mem, unclosed⟩
    obtain ⟨e, spans⟩ := spans_of_mem distinct mem
    cases newest : newestOf ProbingEdgeRow.tsUs edges with
    | none =>
      have edge := spans.opener.edge
      rw [newestOf_none.mp newest] at edge
      cases edge
    | some f =>
      have inside := (open_iff_holds_newest spans newest).mp unclosed
      have passive := passiveAt_of_contains distinct spans inside
      exact ⟨f, rfl, (passiveAt_newest distinct newest).mp passive⟩
  · rintro ⟨f, newest, quiet⟩
    obtain ⟨s, mem, inside⟩ :=
      contains_of_passiveAt distinct ((passiveAt_newest distinct newest).mpr quiet)
    obtain ⟨e, spans⟩ := spans_of_mem distinct mem
    exact ⟨s, mem, (open_iff_holds_newest spans newest).mpr inside⟩

theorem probingStretch_pairwise_apart (distinct : (edges.map ProbingEdgeRow.tsUs).Nodup) :
    (probingStretch edges).Pairwise fun s u => s.span.Apart u.span := by
  have keys := List.pairwise_map.mp (probingStretch_opened_nodup edges)
  refine keys.imp_of_mem fun {s u} memS memU different => ?_
  obtain ⟨e, first⟩ := spans_of_mem distinct memS
  obtain ⟨f, second⟩ := spans_of_mem distinct memU
  rw [first.opened, second.opened] at different
  rcases lt_or_gt_of_ne different with before | after
  · exact stretches_apart distinct first second before
  · intro t both
    exact stretches_apart distinct second first after t both.symm

theorem ProbingEdgeRow.closedBy_congr {a b : ProbingEdgeRow} (reason : a.reason = b.reason)
    (asked : a.reason = none ∨ a.reason = some .experiment →
      a.peerUid.isNone = b.peerUid.isNone) : a.closedBy = b.closedBy := by
  unfold ProbingEdgeRow.closedBy
  rw [← reason]
  split
  · rfl
  · rfl
  · rfl
  next unsaid => rw [asked (.inr unsaid)]
  next unsaid => rw [asked (.inl unsaid)]

end

/-- What the rows of `probing_stretch` say of the edges they are read from. -/
structure TilesPassive (edges : List ProbingEdgeRow) (rows : List SilenceRow) : Prop where
  apart : rows.Pairwise fun s u => s.span.Apart u.span
  union : ∀ t, (∃ s ∈ rows, s.span.Contains t) ↔ PassiveAt edges t
  openEnded : (∃ s ∈ rows, s.gapClosedUs = none) ↔
    ∃ f, newestOf ProbingEdgeRow.tsUs edges = some f ∧ f.tier = .passive
  separated : ∀ s ∈ rows, ∀ u ∈ rows, s.gapOpenedUs < u.gapOpenedUs →
    ∃ a ∈ edges, a.tier = .active ∧ s.gapOpenedUs < a.tsUs ∧ a.tsUs < u.gapOpenedUs
  closer : ∀ s ∈ rows, ∀ a, FirstActive edges s.gapOpenedUs a →
    s.gapClosedUs = some a.tsUs ∧ s.gapClosedBy = some a.closedBy
  unclosed : ∀ s ∈ rows, (∀ a, ¬ FirstActive edges s.gapOpenedUs a) →
    s.gapClosedUs = none ∧ s.gapClosedBy = none

theorem probingStretch_tiles_passive (edges : List ProbingEdgeRow)
    (distinct : (edges.map ProbingEdgeRow.tsUs).Nodup) :
    TilesPassive edges (probingStretch edges) ∧
      ∀ a b : ProbingEdgeRow, a.reason = b.reason →
        (a.reason = none ∨ a.reason = some .experiment →
          a.peerUid.isNone = b.peerUid.isNone) → a.closedBy = b.closedBy := by
  refine ⟨?_, fun a b => ProbingEdgeRow.closedBy_congr⟩
  constructor
  case apart => exact probingStretch_pairwise_apart distinct
  case union =>
    intro t
    constructor
    · rintro ⟨s, mem, inside⟩
      obtain ⟨e, spans⟩ := spans_of_mem distinct mem
      exact passiveAt_of_contains distinct spans inside
    · intro passive
      exact contains_of_passiveAt distinct passive
  case openEnded => exact exists_open_iff distinct
  case separated =>
    intro s memS u memU order
    obtain ⟨e, first⟩ := spans_of_mem distinct memS
    obtain ⟨f, second⟩ := spans_of_mem distinct memU
    rw [first.opened, second.opened] at order ⊢
    exact active_between distinct first.opener second.opener order
  case closer =>
    intro s mem a first
    obtain ⟨e, spans⟩ := spans_of_mem distinct mem
    rw [spans.opened] at first
    obtain ⟨c, closed, _⟩ := closed_by_active spans first.edge first.active first.after
    obtain ⟨b, other, rfl, named⟩ := spans.closed c closed
    rw [first.unique distinct other]
    exact ⟨closed, named⟩
  case unclosed =>
    intro s mem none_
    obtain ⟨e, spans⟩ := spans_of_mem distinct mem
    cases closed : s.gapClosedUs with
    | none => exact ⟨rfl, (spans.unclosed closed).1⟩
    | some c =>
      obtain ⟨b, first, _, _⟩ := spans.closed c closed
      rw [← spans.opened] at first
      exact absurd first (none_ b)

/-- Passive at 0, then active at 1 in a row without a reason. -/
def unexplainedSwitch (peerUid : Option Nat) : List ProbingEdgeRow :=
  [⟨0, .passive, none, some .startup⟩, ⟨1, .active, peerUid, none⟩]

theorem probingStretch_tiles_passive_switch :
    TilesPassive (unexplainedSwitch none) (probingStretch (unexplainedSwitch none)) ∧
      ∀ a b : ProbingEdgeRow, a.reason = b.reason →
        (a.reason = none ∨ a.reason = some .experiment →
          a.peerUid.isNone = b.peerUid.isNone) → a.closedBy = b.closedBy :=
  probingStretch_tiles_passive (unexplainedSwitch none) (by decide)

/-- A row from before the column existed is told apart by who asked. -/
theorem closedBy_not_by_reason :
    ¬ ∃ named : Option ProbingReason → String, ∀ edges : List ProbingEdgeRow,
      (edges.map ProbingEdgeRow.tsUs).Nodup → ∀ s ∈ probingStretch edges,
        ∀ a, FirstActive edges s.gapOpenedUs a → s.gapClosedBy = some (named a.reason) := by
  rintro ⟨named, by_reason⟩
  have row (peerUid : Option Nat) : probingStretch (unexplainedSwitch peerUid) =
      [⟨"passive", 0, some 1, some (if peerUid.isNone then "startup" else "active")⟩] := rfl
  have named (peerUid : Option Nat) :
      some (if peerUid.isNone then "startup" else "active") = some (named none) := by
    refine by_reason (unexplainedSwitch peerUid) (show [(0 : Int), 1].Nodup by decide) _
      (by rw [row]; exact List.mem_singleton_self _) ⟨1, .active, peerUid, none⟩ ?_
    refine ⟨by simp [unexplainedSwitch], rfl, Int.zero_lt_one, fun b mem active _ => ?_⟩
    rcases List.mem_cons.mp mem with rfl | later
    · cases active
    · rw [List.mem_singleton.mp later]
  have both := (named none).trans (named (some 501)).symm
  exact absurd both (by decide)

end NetObserver
