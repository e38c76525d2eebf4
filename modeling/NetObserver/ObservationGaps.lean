import NetObserver.Diagnosis

/-! The gaps of a record, and when they tile its silences. -/

namespace NetObserver

open Relational

namespace RecordTables

def IsPoint (r : RecordTables) (t : Int) : Prop :=
  t ∈ r.sampleTs ∨ ∃ e ∈ r.observingEdge, e.tsUs = t

def IsCloser (r : RecordTables) (t : Int) : Prop :=
  t ∈ r.sampleTs ∨ ∃ e ∈ r.observingEdge, e.observing = true ∧ e.tsUs = t

/-- Two consecutive points. -/
structure Stride (r : RecordTables) (a b : Int) : Prop where
  first : r.IsPoint a
  second : r.IsPoint b
  order : a < b
  between : ∀ c, r.IsPoint c → ¬ (a < c ∧ c < b)

/-- Between two pauses something closed the first. -/
def PausesClosed (r : RecordTables) : Prop :=
  ∀ e ∈ r.observingEdge, ∀ f ∈ r.observingEdge, e.observing = false → f.observing = false →
    e.tsUs < f.tsUs → ∃ c, r.IsCloser c ∧ e.tsUs < c ∧ c ≤ f.tsUs

def DistinctEdges (r : RecordTables) : Prop := (r.observingEdge.map ObservingEdge.tsUs).Nodup

variable {r : RecordTables}

theorem IsCloser.isPoint {t : Int} (closer : r.IsCloser t) : r.IsPoint t := by
  rcases closer with sample | ⟨e, mem, _, same⟩
  · exact .inl sample
  · exact .inr ⟨e, mem, same⟩

theorem Stride.unique {a b b' : Int} (s : r.Stride a b) (s' : r.Stride a b') : b = b' := by
  rcases Int.lt_trichotomy b b' with less | same | more
  · exact absurd ⟨s.order, less⟩ (s'.between b s.second)
  · exact same
  · exact absurd ⟨s'.order, more⟩ (s.between b' s'.second)

theorem Stride.unique_left {a a' b : Int} (s : r.Stride a b) (s' : r.Stride a' b) : a = a' := by
  rcases Int.lt_trichotomy a a' with less | same | more
  · exact absurd ⟨less, s'.order⟩ (s.between a' s'.first)
  · exact same
  · exact absurd ⟨more, s.order⟩ (s'.between a s.first)

theorem mem_closers {p : Point} : p ∈ r.closers ↔
    (p.prio = 1 ∧ p.kind = .sample ∧ p.tsUs ∈ r.sampleTs) ∨
      ∃ e ∈ r.observingEdge, e.observing = true ∧ e.point = p := by
  simp only [closers, samplePoints, List.mem_append, List.mem_map, List.mem_filter]
  constructor
  · rintro (⟨e, ⟨mem, on⟩, rfl⟩ | ⟨ts, mem, rfl⟩)
    · exact .inr ⟨e, mem, on, rfl⟩
    · exact .inl ⟨rfl, rfl, mem⟩
  · rintro (⟨prio, kind, mem⟩ | ⟨e, mem, on, rfl⟩)
    · refine .inr ⟨p.tsUs, mem, ?_⟩
      rw [← prio, ← kind]
    · exact .inl ⟨e, ⟨mem, on⟩, rfl⟩

theorem isCloser_iff {t : Int} : r.IsCloser t ↔ ∃ p ∈ r.closers, p.tsUs = t := by
  constructor
  · rintro (sample | ⟨e, mem, on, rfl⟩)
    · exact ⟨⟨t, .sample, 1⟩, mem_closers.mpr (.inl ⟨rfl, rfl, sample⟩), rfl⟩
    · exact ⟨e.point, mem_closers.mpr (.inr ⟨e, mem, on, rfl⟩), rfl⟩
  · rintro ⟨p, mem, rfl⟩
    rcases mem_closers.mp mem with ⟨_, _, sample⟩ | ⟨e, held, on, rfl⟩
    · exact .inl sample
    · exact .inr ⟨e, held, on, rfl⟩

theorem point_cases {p : Point} (mem : p ∈ r.points) :
    (p.prio = 1 ∧ p.kind = .sample ∧ p.tsUs ∈ r.sampleTs) ∨
      ∃ e ∈ r.observingEdge, e.point = p := by
  have held := (mem_firstOfEach mem).1
  rcases List.mem_append.mp held with sample | edge
  · obtain ⟨ts, mem', rfl⟩ := List.mem_map.mp sample
    exact .inl ⟨rfl, rfl, mem'⟩
  · obtain ⟨e, mem', same⟩ := List.mem_map.mp edge
    exact .inr ⟨e, mem', same⟩

theorem isPoint_iff {t : Int} : r.IsPoint t ↔ ∃ p ∈ r.points, p.tsUs = t := by
  constructor
  · rintro (sample | ⟨e, mem, rfl⟩)
    · have held : (⟨t, .sample, 1⟩ : Point) ∈
          r.samplePoints ++ r.observingEdge.map ObservingEdge.point :=
        List.mem_append_left _ (List.mem_map.mpr ⟨t, sample, rfl⟩)
      exact exists_firstOfEach held
    · have held : e.point ∈ r.samplePoints ++ r.observingEdge.map ObservingEdge.point :=
        List.mem_append_right _ (List.mem_map_of_mem mem)
      exact exists_firstOfEach held
  · rintro ⟨p, mem, rfl⟩
    rcases point_cases mem with ⟨_, _, sample⟩ | ⟨e, held, rfl⟩
    · exact .inl sample
    · exact .inr ⟨e, held, rfl⟩

theorem edge_of_same_ts (distinct : r.DistinctEdges) {e f : ObservingEdge}
    (me : e ∈ r.observingEdge) (mf : f ∈ r.observingEdge) (same : e.tsUs = f.tsUs) : e = f :=
  List.inj_on_of_nodup_map distinct me mf same

/-- At the instant of an edge the point is the edge. -/
theorem point_of_edge (distinct : r.DistinctEdges) {e : ObservingEdge} {p : Point}
    (me : e ∈ r.observingEdge) (mp : p ∈ r.points) (same : p.tsUs = e.tsUs) : p = e.point := by
  have held : e.point ∈ r.samplePoints ++ r.observingEdge.map ObservingEdge.point :=
    List.mem_append_right _ (List.mem_map_of_mem me)
  have first := (mem_firstOfEach mp).2 e.point held same.symm
  rcases point_cases mp with ⟨prio, _, _⟩ | ⟨f, mf, rfl⟩
  · rw [prio] at first
    exact absurd first (Nat.not_le_of_lt Nat.zero_lt_one)
  · rw [edge_of_same_ts distinct mf me same]

theorem points_distinct (r : RecordTables) : (r.points.map Point.tsUs).Nodup :=
  firstOfEach_keys_nodup _ _ _

theorem stride_of_points {p q : Point} (mp : p ∈ r.points) (mq : q ∈ r.points)
    (order : p.tsUs < q.tsUs)
    (between : ∀ c ∈ r.points, ¬ (p.tsUs < c.tsUs ∧ c.tsUs < q.tsUs)) :
    r.Stride p.tsUs q.tsUs := by
  refine ⟨isPoint_iff.mpr ⟨p, mp, rfl⟩, isPoint_iff.mpr ⟨q, mq, rfl⟩, order, ?_⟩
  intro c point
  obtain ⟨m, mem, rfl⟩ := isPoint_iff.mp point
  exact between m mem

theorem stride_mem_lagOver {p q : Point} (mp : p ∈ r.points) (mq : q ∈ r.points) :
    (some p, q) ∈ lagOver Point.tsUs r.points ↔ r.Stride p.tsUs q.tsUs := by
  rw [mem_lagOver r.points_distinct]
  constructor
  · rintro ⟨_, _, order, between⟩
    exact stride_of_points mp mq order between
  · intro stride
    exact ⟨mp, mq, stride.order,
      fun c mem => stride.between c.tsUs (isPoint_iff.mpr ⟨c, mem, rfl⟩)⟩

/-- A pause's gap runs to the first thing that can close it. -/
structure PauseGap (r : RecordTables) (g : ObservationGap) (e : ObservingEdge) : Prop where
  edge : e ∈ r.observingEdge
  off : e.observing = false
  opened : g.gapOpenedUs = e.tsUs
  cause : g.cause = .pause
  unclosed : g.gapClosedUs = none → ∀ c, r.IsCloser c → c ≤ e.tsUs
  closed : ∀ c, g.gapClosedUs = some c →
    r.IsCloser c ∧ e.tsUs < c ∧ ∀ d, r.IsCloser d → e.tsUs < d → c ≤ d

theorem pause_of_mem {g : ObservationGap} (mem : g ∈ r.pauses) : ∃ e, r.PauseGap g e := by
  obtain ⟨⟨e, o⟩, first, rfl⟩ := List.mem_map.mp mem
  obtain ⟨joined, newest⟩ := mem_firstOfEach first
  cases o with
  | none =>
    obtain ⟨held, unmatched⟩ := mem_leftJoin_none.mp joined
    obtain ⟨me, off⟩ := List.mem_filter.mp held
    refine ⟨e, me, by simpa using off, rfl, rfl, fun _ c closer => ?_,
      (fun c some_ => by cases some_)⟩
    obtain ⟨p, mp, rfl⟩ := isCloser_iff.mp closer
    have not_after := unmatched p mp
    simpa using not_after
  | some p =>
    obtain ⟨held, mp, after⟩ := mem_leftJoin_some.mp joined
    obtain ⟨me, off⟩ := List.mem_filter.mp held
    refine ⟨e, me, by simpa using off, rfl, rfl, (fun none_ => by cases none_),
      fun c some_ => ?_⟩
    cases some_
    refine ⟨isCloser_iff.mpr ⟨p, mp, rfl⟩, of_decide_eq_true after, fun d closer later => ?_⟩
    obtain ⟨q, mq, rfl⟩ := isCloser_iff.mp closer
    have other : (e, some q) ∈ leftJoin (fun p q => decide (p.tsUs < q.tsUs))
        (r.observingEdge.filter fun e => !e.observing) r.closers :=
      mem_leftJoin_some.mpr ⟨held, mq, decide_eq_true later⟩
    have order := newest (e, some q) other rfl
    have lex : (toLex (p.tsUs, p.prio) : Int ×ₗ Nat) ≤ toLex (q.tsUs, q.prio) :=
      WithTop.coe_le_coe.mp order
    rcases Prod.Lex.toLex_le_toLex.mp lex with less | ⟨same, _⟩
    · exact Int.le_of_lt less
    · exact Int.le_of_eq same

theorem exists_pause {e : ObservingEdge} (mem : e ∈ r.observingEdge) (off : e.observing = false) :
    ∃ g ∈ r.pauses, g.gapOpenedUs = e.tsUs := by
  have held : e ∈ r.observingEdge.filter fun e => !e.observing :=
    List.mem_filter.mpr ⟨mem, by simp [off]⟩
  obtain ⟨o, joined⟩ :=
    exists_leftJoin (fun (p : ObservingEdge) (q : Point) => decide (p.tsUs < q.tsUs)) r.closers held
  have numbered : ∃ row ∈ firstOfEach (fun row : ObservingEdge × Option Point => row.1.tsUs)
      closingOrder (leftJoin (fun p q => decide (p.tsUs < q.tsUs))
        (r.observingEdge.filter fun e => !e.observing) r.closers), row.1.tsUs = e.tsUs :=
    exists_firstOfEach joined
  obtain ⟨row, first, same⟩ := numbered
  exact ⟨_, List.mem_map_of_mem first, same⟩

theorem pauses_opened_nodup (r : RecordTables) :
    (r.pauses.map ObservationGap.gapOpenedUs).Nodup := by
  rw [pauses, List.map_map]
  exact firstOfEach_keys_nodup _ _ _

/-- A stop is a stride that ends at a startup and does not begin at a pause. -/
structure StopGap (r : RecordTables) (g : ObservationGap) (p : Point) (su : ObservingEdge) :
    Prop where
  startup : su ∈ r.startups
  point : p ∈ r.points
  stride : r.Stride p.tsUs su.tsUs
  kind : p.kind ≠ .pause
  gap : g = ⟨p.tsUs, some su.tsUs, some .startup, .stop⟩

theorem startup_mem {su : ObservingEdge} (mem : su ∈ r.startups) :
    su ∈ r.observingEdge ∧ su.observing = true := by
  obtain ⟨held, kind⟩ := List.mem_filter.mp mem
  rw [Bool.and_eq_true] at kind
  exact ⟨held, kind.1⟩

/-- The newest point before an instant is the one a stride leads from. -/
theorem newestBefore_iff {p : Point} {t : Int} (point : r.IsPoint t) :
    newestBefore Point.tsUs r.points t = some p ↔ p ∈ r.points ∧ r.Stride p.tsUs t := by
  constructor
  · intro found
    obtain ⟨mem, before⟩ := newestBefore_mem found
    refine ⟨mem, isPoint_iff.mpr ⟨p, mem, rfl⟩, point, before, ?_⟩
    intro c other inside
    obtain ⟨q, mq, rfl⟩ := isPoint_iff.mp other
    have newest := newestBefore_newest found mq inside.2
    omega
  · rintro ⟨mem, stride⟩
    obtain ⟨q, found⟩ := newestBefore_some_of_mem mem stride.order
    obtain ⟨mq, before⟩ := newestBefore_mem found
    have newest := newestBefore_newest found mem stride.order
    have same : q.tsUs = p.tsUs := by
      have between := stride.between q.tsUs (isPoint_iff.mpr ⟨q, mq, rfl⟩)
      omega
    rw [found, firstOfEach_unique mq mem same]

theorem mem_stopsAnchored {o c : Int} : (o, c) ∈ r.stopsAnchored ↔
    ∃ p su, su ∈ r.startups ∧ p ∈ r.points ∧ r.Stride p.tsUs su.tsUs ∧ p.kind ≠ .pause ∧
      p.tsUs = o ∧ su.tsUs = c := by
  have startupPoint {su : ObservingEdge} (mem : su ∈ r.startups) : r.IsPoint su.tsUs :=
    .inr ⟨su, (startup_mem mem).1, rfl⟩
  constructor
  · intro mem
    obtain ⟨row, raw, found⟩ := List.mem_filterMap.mp mem
    obtain ⟨su, startup, rfl⟩ := List.mem_map.mp raw
    obtain ⟨p, newest, kept⟩ := Option.bind_eq_some_iff.mp found
    obtain ⟨mp, stride⟩ := (newestBefore_iff (startupPoint startup)).mp newest
    split at kept
    next => cases kept
    next kind =>
      cases kept
      exact ⟨p, su, startup, mp, stride, kind, rfl, rfl⟩
  · rintro ⟨p, su, startup, mp, stride, kind, rfl, rfl⟩
    have newest := (newestBefore_iff (startupPoint startup)).mpr ⟨mp, stride⟩
    refine List.mem_filterMap.mpr ⟨(su, some p), ?_, ?_⟩
    · exact List.mem_map.mpr ⟨su, startup, by rw [newest]⟩
    · rw [Option.bind_some, if_neg kind]

theorem stop_of_mem {g : ObservationGap} (mem : g ∈ r.stops) : ∃ p su, r.StopGap g p su := by
  obtain ⟨⟨o, c⟩, first, rfl⟩ := List.mem_map.mp mem
  obtain ⟨p, su, startup, mp, stride, kind, rfl, rfl⟩ := mem_stopsAnchored.mp (mem_firstOfEach first).1
  exact ⟨p, su, startup, mp, stride, kind, rfl⟩

theorem mem_stops {p : Point} {su : ObservingEdge} (startup : su ∈ r.startups) (mp : p ∈ r.points)
    (stride : r.Stride p.tsUs su.tsUs) (kind : p.kind ≠ .pause) :
    (⟨p.tsUs, some su.tsUs, some .startup, .stop⟩ : ObservationGap) ∈ r.stops := by
  have anchored := mem_stopsAnchored.mpr ⟨p, su, startup, mp, stride, kind, rfl, rfl⟩
  have numbered : ∃ row ∈ firstOfEach Prod.fst Prod.snd r.stopsAnchored, row.1 = p.tsUs :=
    exists_firstOfEach anchored
  obtain ⟨⟨o, c⟩, first, same⟩ := numbered
  refine List.mem_map.mpr ⟨(o, c), first, ?_⟩
  obtain ⟨q, sv, _, _, stride', _, rfl, rfl⟩ := mem_stopsAnchored.mp (mem_firstOfEach first).1
  have opened : q.tsUs = p.tsUs := same
  rw [opened] at stride' ⊢
  rw [stride'.unique stride]

theorem stops_opened_nodup (r : RecordTables) :
    (r.stops.map ObservationGap.gapOpenedUs).Nodup := by
  rw [stops, List.map_map]
  exact firstOfEach_keys_nodup _ _ _

/-- A sleep is a long stride that no pause or stop covers. -/
structure SleepGap (r : RecordTables) (thresholdUs : Int) (g : ObservationGap) (p q : Point) :
    Prop where
  first : p ∈ r.points
  second : q ∈ r.points
  stride : r.Stride p.tsUs q.tsUs
  long : thresholdUs < q.tsUs - p.tsUs
  uncovered : ∀ c ∈ r.closedGap, c.covers p.tsUs q.tsUs = false
  gap : g = ⟨p.tsUs, some q.tsUs, some q.kind, .sleep⟩

theorem mem_sleeps {thresholdUs : Int} {g : ObservationGap} :
    g ∈ r.sleeps thresholdUs ↔ ∃ p q, r.SleepGap thresholdUs g p q := by
  constructor
  · intro mem
    obtain ⟨⟨a, q⟩, row, found⟩ := List.mem_filterMap.mp mem
    obtain ⟨p, rfl, kept⟩ := Option.bind_eq_some_iff.mp found
    obtain ⟨mp, mq, _⟩ := (mem_lagOver r.points_distinct).mp row
    have stride := (stride_mem_lagOver mp mq).mp row
    split at kept
    next long =>
      obtain ⟨long, uncovered⟩ := long
      cases kept
      refine ⟨p, q, mp, mq, stride, long, ?_, rfl⟩
      intro c held
      rw [List.any_eq_true, not_exists] at uncovered
      exact Bool.eq_false_iff.mpr fun covers => uncovered c ⟨held, covers⟩
    next => cases kept
  · rintro ⟨p, q, mp, mq, stride, long, uncovered, rfl⟩
    refine List.mem_filterMap.mpr ⟨(some p, q), (stride_mem_lagOver mp mq).mpr stride, ?_⟩
    have open_ : ¬ r.closedGap.any (fun c => c.covers p.tsUs q.tsUs) = true := by
      rw [List.any_eq_true]
      rintro ⟨c, held, covers⟩
      rw [uncovered c held] at covers
      cases covers
    rw [Option.bind_some, if_pos ⟨long, open_⟩]

/-- A gap from a point to the next one, or from the last point on. -/
structure Tight (r : RecordTables) (g : ObservationGap) : Prop where
  opened : r.IsPoint g.gapOpenedUs
  unclosed : g.gapClosedUs = none → ∀ c, r.IsPoint c → c ≤ g.gapOpenedUs
  closed : ∀ c, g.gapClosedUs = some c → r.Stride g.gapOpenedUs c

/-- Where pauses are closed, a point after a pause has something that closes it in reach. -/
theorem PausesClosed.closer (closed : r.PausesClosed) {e : ObservingEdge}
    (edge : e ∈ r.observingEdge) (off : e.observing = false) {t : Int} (point : r.IsPoint t)
    (after : e.tsUs < t) : ∃ c, r.IsCloser c ∧ e.tsUs < c ∧ c ≤ t := by
  rcases point with sample | ⟨f, mf, rfl⟩
  · exact ⟨t, .inl sample, after, Int.le_refl _⟩
  · cases on : f.observing with
    | true => exact ⟨f.tsUs, .inr ⟨f, mf, on, rfl⟩, after, Int.le_refl _⟩
    | false => exact closed e edge f mf off on after

theorem PauseGap.tight {g : ObservationGap} {e : ObservingEdge} (gap : r.PauseGap g e)
    (closed : r.PausesClosed) : r.Tight g := by
  refine ⟨?_, ?_, ?_⟩
  · rw [gap.opened]
    exact .inr ⟨e, gap.edge, rfl⟩
  · intro none_ t point
    rw [gap.opened]
    by_contra after
    obtain ⟨c, closer, later, _⟩ := closed.closer gap.edge gap.off point (by omega)
    have before := gap.unclosed none_ c closer
    omega
  · intro c some_
    obtain ⟨closer, later, first⟩ := gap.closed c some_
    rw [gap.opened]
    refine ⟨.inr ⟨e, gap.edge, rfl⟩, closer.isPoint, later, ?_⟩
    intro t point inside
    obtain ⟨d, closer', later', before⟩ := closed.closer gap.edge gap.off point inside.1
    have least := first d closer' later'
    omega

theorem tight_of_stride {a b : Int} (stride : r.Stride a b) (by_ : Option PointKind)
    (cause : GapCause) : r.Tight ⟨a, some b, by_, cause⟩ := by
  refine ⟨stride.first, (fun none_ => by cases none_), fun c same => ?_⟩
  cases same
  exact stride

theorem gap_cases {thresholdUs : Int} {g : ObservationGap}
    (mem : g ∈ r.observationGap thresholdUs) :
    (∃ e, r.PauseGap g e) ∨ (∃ p su, r.StopGap g p su) ∨ ∃ p q, r.SleepGap thresholdUs g p q := by
  rcases List.mem_append.mp mem with closed | sleep
  · rcases List.mem_append.mp closed with pause | stop
    · exact .inl (pause_of_mem pause)
    · exact .inr (.inl (stop_of_mem stop))
  · exact .inr (.inr (mem_sleeps.mp sleep))

theorem tight_of_mem (closed : r.PausesClosed) {thresholdUs : Int} {g : ObservationGap}
    (mem : g ∈ r.observationGap thresholdUs) : r.Tight g := by
  rcases gap_cases mem with ⟨e, pause⟩ | ⟨p, su, stop⟩ | ⟨p, q, sleep⟩
  · exact pause.tight closed
  · rw [stop.gap]
    exact tight_of_stride stop.stride _ _
  · rw [sleep.gap]
    exact tight_of_stride sleep.stride _ _

theorem Tight.apart_of_before {g h : ObservationGap} (tight : r.Tight g)
    (point : r.IsPoint h.gapOpenedUs) (before : g.gapOpenedUs < h.gapOpenedUs) : g.span.Apart h.span := by
  rintro u ⟨inside, inside'⟩
  cases closed : g.gapClosedUs with
  | none =>
    have last := tight.unclosed closed _ point
    omega
  | some c =>
    have stride := tight.closed c closed
    have less := inside.2 c closed
    have reached : h.gapOpenedUs ≤ u := inside'.1
    exact stride.between _ point ⟨before, by omega⟩

theorem Tight.apart {g h : ObservationGap} (tg : r.Tight g) (th : r.Tight h)
    (other : g.gapOpenedUs ≠ h.gapOpenedUs) : g.span.Apart h.span := by
  rcases Int.lt_or_gt_of_ne other with before | after
  · exact tg.apart_of_before th.opened before
  · intro u both
    exact th.apart_of_before tg.opened after u both.symm

theorem sleeps_opened_nodup (thresholdUs : Int) (r : RecordTables) :
    ((r.sleeps thresholdUs).map ObservationGap.gapOpenedUs).Nodup := by
  have closes : ((r.sleeps thresholdUs).map ObservationGap.gapClosedUs).Nodup := by
    have ends : ((lagOver Point.tsUs r.points).map fun row => some row.2.tsUs).Nodup := by
      have perm := (map_snd_lagOver_perm Point.tsUs r.points).map fun p => some p.tsUs
      rw [List.map_map] at perm
      refine perm.nodup_iff.mpr ?_
      have injected := r.points_distinct.map (Option.some_injective Int)
      rwa [List.map_map] at injected
    refine List.Nodup.sublist ?_ ends
    rw [sleeps]
    induction lagOver Point.tsUs r.points with
    | nil => exact .slnil
    | cons row rows ih =>
      rw [List.filterMap_cons, List.map_cons]
      cases kept : (row.1.bind fun a =>
          if thresholdUs < row.2.tsUs - a.tsUs ∧
              ¬ r.closedGap.any (fun c => c.covers a.tsUs row.2.tsUs) then
            some (⟨a.tsUs, some row.2.tsUs, some row.2.kind, .sleep⟩ : ObservationGap)
          else none) with
      | none => exact ih.cons _
      | some g =>
        obtain ⟨a, _, found⟩ := Option.bind_eq_some_iff.mp kept
        split at found
        next =>
          cases found
          exact ih.cons_cons _
        next => cases found
  refine List.pairwise_map.mpr ((List.pairwise_map.mp closes).imp_of_mem ?_)
  intro g h mg mh apart same
  obtain ⟨p, q, sleep⟩ := mem_sleeps.mp mg
  obtain ⟨p', q', sleep'⟩ := mem_sleeps.mp mh
  rw [sleep.gap, sleep'.gap] at same apart
  have opened : p.tsUs = p'.tsUs := same
  have stride' := sleep'.stride
  rw [← opened] at stride'
  exact apart (congrArg some (sleep.stride.unique stride'))

/-- No two gaps open at one instant, where pauses are closed. -/
theorem opened_nodup (distinct : r.DistinctEdges) (closed : r.PausesClosed) (thresholdUs : Int) :
    ((r.observationGap thresholdUs).map ObservationGap.gapOpenedUs).Nodup := by
  rw [observationGap, List.map_append, List.map_append]
  refine List.nodup_append.mpr ⟨List.nodup_append.mpr ⟨r.pauses_opened_nodup, r.stops_opened_nodup, ?_⟩,
    sleeps_opened_nodup thresholdUs r, ?_⟩
  · rintro o pause o' stop rfl
    obtain ⟨g, mg, rfl⟩ := List.mem_map.mp pause
    obtain ⟨h, mh, same⟩ := List.mem_map.mp stop
    obtain ⟨e, paused⟩ := pause_of_mem mg
    obtain ⟨p, su, stopped⟩ := stop_of_mem mh
    rw [stopped.gap, paused.opened] at same
    have edge := point_of_edge distinct paused.edge stopped.point same
    have kind := stopped.kind
    rw [edge] at kind
    simp [ObservingEdge.point, ObservingEdge.kind, paused.off] at kind
  · rintro o named o' slept rfl
    rw [← List.map_append] at named
    obtain ⟨g, mg, rfl⟩ := List.mem_map.mp named
    obtain ⟨h, mh, same⟩ := List.mem_map.mp slept
    obtain ⟨p, q, sleep⟩ := mem_sleeps.mp mh
    have named_ : g ∈ r.observationGap thresholdUs := List.mem_append_left _ mg
    have tight := tight_of_mem closed named_
    rw [sleep.gap] at same
    have opened : p.tsUs = g.gapOpenedUs := same
    cases ended : g.gapClosedUs with
    | none =>
      have last := tight.unclosed ended q.tsUs sleep.stride.second
      have order := sleep.stride.order
      omega
    | some c =>
      have stride := tight.closed c ended
      rw [← opened] at stride
      have uncovered := sleep.uncovered g mg
      rw [ObservationGap.covers, ended, opened, stride.unique sleep.stride] at uncovered
      simp at uncovered

theorem gaps_apart (distinct : r.DistinctEdges) (closed : r.PausesClosed) (thresholdUs : Int) :
    (r.observationGap thresholdUs).Pairwise fun g h => g.span.Apart h.span := by
  have opened := List.pairwise_map.mp (opened_nodup distinct closed thresholdUs)
  refine opened.imp_of_mem ?_
  intro g h mg mh other
  exact (tight_of_mem closed mg).apart (tight_of_mem closed mh) other

theorem spans_symm : Std.Symm fun g h : ObservationGap => g.span.Apart h.span :=
  ⟨fun _ _ apart u both => apart u both.symm⟩

/-- Gaps that keep apart leave no pause unclosed before another. -/
theorem pausesClosed_of_apart (apart : r.gaps.Pairwise fun g h => g.span.Apart h.span) :
    r.PausesClosed := by
  intro e me f mf off off' order
  by_contra unclosed
  obtain ⟨g, mg, opened⟩ := exists_pause me off
  obtain ⟨h, mh, opened'⟩ := exists_pause mf off'
  have inGaps {k : ObservationGap} (mem : k ∈ r.pauses) : k ∈ r.gaps :=
    List.mem_append_left _ (List.mem_append_left _ mem)
  have other : g ≠ h := by
    rintro rfl
    omega
  have symm := spans_symm
  refine apart.forall (inGaps mg) (inGaps mh) other f.tsUs ⟨⟨?_, ?_⟩, ?_, ?_⟩
  · change g.gapOpenedUs ≤ _
    omega
  · intro c ended
    obtain ⟨e', pause⟩ := pause_of_mem mg
    obtain ⟨closer, later, _⟩ := pause.closed c ended
    have same := pause.opened
    by_contra past
    exact unclosed ⟨c, closer, by omega, by omega⟩
  · exact Int.le_of_eq opened'
  · intro c ended
    obtain ⟨f', pause⟩ := pause_of_mem mh
    obtain ⟨_, later, _⟩ := pause.closed c ended
    have same := pause.opened
    omega

def ContextRow.identity (c : ContextRow) : String × String × Int × Option Int :=
  (c.id, c.triggerId, c.openedUs, c.closedUs)

def Incident.identity (i : Incident) : String × String × Int × Option Int :=
  (i.id, i.triggerId, i.openedUs, i.closedUs)

/-- The gaps of a record and what two queries make of them. -/
structure GapsTile (r : RecordTables) : Prop where
  disjoint : r.gaps.Pairwise fun g h => g.span.Apart h.span
  bounds : ∀ g ∈ r.gaps, r.IsPoint g.gapOpenedUs ∧
    (∀ c, g.gapClosedUs = some c → r.IsPoint c ∧ g.gapOpenedUs < c) ∧
    (g.gapClosedUs = none → ∀ c, r.IsCloser c → c ≤ g.gapOpenedUs)
  quiet : ∀ g ∈ r.gaps, ∀ ts ∈ r.sampleTs, ¬ (g.gapOpenedUs < ts ∧ g.span.Contains ts)
  covered : ∀ a b, r.Stride a b → defaultSleepThresholdUs < b - a →
    (r.gaps.filter fun g => g.covers a b).length = 1
  stopped : ∀ su ∈ r.startups, ∀ p ∈ r.points, r.Stride p.tsUs su.tsUs → p.kind ≠ .pause →
    (r.gaps.filter fun g => g.cause = .stop ∧ g.gapClosedUs = some su.tsUs).length = 1
  incidents : ∀ loadThreshold, ((r.incidentContext loadThreshold).map ContextRow.identity).Perm
    (r.incident.map Incident.identity)
  ramp : ∀ regrSlope dropTsUs windowUs, ∀ row ∈ r.gatewayRamp regrSlope dropTsUs windowUs,
    row.observationGapUs = ((Finset.Ico (dropTsUs - windowUs) dropTsUs).filter
      fun u => ∃ g ∈ r.gaps, g.span.Contains u).card

theorem gap_bounds {thresholdUs : Int} {g : ObservationGap}
    (mem : g ∈ r.observationGap thresholdUs) : r.IsPoint g.gapOpenedUs ∧
      (∀ c, g.gapClosedUs = some c → r.IsPoint c ∧ g.gapOpenedUs < c) ∧
      (g.gapClosedUs = none → ∀ c, r.IsCloser c → c ≤ g.gapOpenedUs) := by
  have of_stride {a b : Int} (stride : r.Stride a b) : r.IsPoint a ∧
      (∀ c, some b = some c → r.IsPoint c ∧ a < c) ∧
      (some b = none → ∀ c, r.IsCloser c → c ≤ a) := by
    refine ⟨stride.first, fun c same => ?_, fun none_ => by cases none_⟩
    cases same
    exact ⟨stride.second, stride.order⟩
  rcases gap_cases mem with ⟨e, pause⟩ | ⟨p, su, stop⟩ | ⟨p, q, sleep⟩
  · rw [pause.opened]
    refine ⟨.inr ⟨e, pause.edge, rfl⟩, fun c ended => ?_, pause.unclosed⟩
    obtain ⟨closer, later, _⟩ := pause.closed c ended
    exact ⟨closer.isPoint, later⟩
  · rw [stop.gap]
    exact of_stride stop.stride
  · rw [sleep.gap]
    exact of_stride sleep.stride

theorem gap_quiet {thresholdUs : Int} {g : ObservationGap} (mem : g ∈ r.observationGap thresholdUs)
    {ts : Int} (sample : ts ∈ r.sampleTs) : ¬ (g.gapOpenedUs < ts ∧ g.span.Contains ts) := by
  rintro ⟨after, inside⟩
  have of_stride {a b : Int} (stride : r.Stride a b) (first : a < ts) (last : ts < b) : False :=
    stride.between ts (.inl sample) ⟨first, last⟩
  rcases gap_cases mem with ⟨e, pause⟩ | ⟨p, su, stop⟩ | ⟨p, q, sleep⟩
  · rw [pause.opened] at after
    cases ended : g.gapClosedUs with
    | none =>
      have last := pause.unclosed ended ts (.inl sample)
      omega
    | some c =>
      have before := inside.2 c ended
      have first := (pause.closed c ended).2.2 ts (.inl sample) after
      omega
  · rw [stop.gap] at after inside
    exact of_stride stop.stride after (inside.2 _ rfl)
  · rw [sleep.gap] at after inside
    exact of_stride sleep.stride after (inside.2 _ rfl)

theorem covers_contains {g : ObservationGap} {a b : Int} (stride : a < b)
    (covers : g.covers a b = true) : g.span.Contains a := by
  rw [ObservationGap.covers, Bool.and_eq_true] at covers
  refine ⟨of_decide_eq_true covers.1, fun c ended => ?_⟩
  have closes : g.gapClosedUs = some c := ended
  rw [closes] at covers
  have reach : b ≤ c := of_decide_eq_true covers.2
  omega

/-- Every long stride has its gap: a pause, a stop, or else a sleep. -/
theorem exists_cover {thresholdUs a b : Int} (stride : r.Stride a b) (long : thresholdUs < b - a) :
    ∃ g ∈ r.observationGap thresholdUs, g.covers a b = true := by
  by_cases named : ∃ c ∈ r.closedGap, c.covers a b = true
  · obtain ⟨c, held, covers⟩ := named
    exact ⟨c, List.mem_append_left _ held, covers⟩
  · obtain ⟨p, mp, rfl⟩ := isPoint_iff.mp stride.first
    obtain ⟨q, mq, rfl⟩ := isPoint_iff.mp stride.second
    refine ⟨⟨p.tsUs, some q.tsUs, some q.kind, .sleep⟩, List.mem_append_right _ ?_, ?_⟩
    · refine mem_sleeps.mpr ⟨p, q, mp, mq, stride, long, fun c held => ?_, rfl⟩
      exact Bool.eq_false_iff.mpr fun covers => named ⟨c, held, covers⟩
    · simp [ObservationGap.covers]

theorem gaps_nodup (distinct : r.DistinctEdges) (closed : r.PausesClosed) : r.gaps.Nodup :=
  (opened_nodup distinct closed defaultSleepThresholdUs).of_map _

theorem covered_once (distinct : r.DistinctEdges) (closed : r.PausesClosed) {a b : Int}
    (stride : r.Stride a b) (long : defaultSleepThresholdUs < b - a) :
    (r.gaps.filter fun g => g.covers a b).length = 1 := by
  obtain ⟨g, mg, covers⟩ := exists_cover stride long
  refine length_filter_eq_one (gaps_nodup distinct closed) mg covers ?_
  intro h mh covers'
  by_contra other
  have symm := spans_symm
  exact (gaps_apart distinct closed _).forall mh mg other a
    ⟨covers_contains stride.order covers', covers_contains stride.order covers⟩

theorem stopped_once (distinct : r.DistinctEdges) (closed : r.PausesClosed) {su : ObservingEdge}
    (startup : su ∈ r.startups) {p : Point} (mp : p ∈ r.points)
    (stride : r.Stride p.tsUs su.tsUs) (kind : p.kind ≠ .pause) :
    (r.gaps.filter fun g => g.cause = .stop ∧ g.gapClosedUs = some su.tsUs).length = 1 := by
  have stop := mem_stops startup mp stride kind
  have mem : (⟨p.tsUs, some su.tsUs, some .startup, .stop⟩ : ObservationGap) ∈ r.gaps :=
    List.mem_append_left _ (List.mem_append_right _ stop)
  refine length_filter_eq_one (gaps_nodup distinct closed) mem (by simp) ?_
  intro g mg closes
  obtain ⟨cause, ended⟩ := of_decide_eq_true closes
  rcases gap_cases mg with ⟨e, pause⟩ | ⟨q, sv, stop'⟩ | ⟨q, q', sleep⟩
  · rw [pause.cause] at cause
    cases cause
  · rw [stop'.gap] at ended ⊢
    have same : sv.tsUs = su.tsUs := Option.some.inj ended
    have stride' := stop'.stride
    rw [same] at stride' ⊢
    rw [stride'.unique_left stride]
  · rw [sleep.gap] at cause
    cases cause

/-- An incident is told once where its moment lies in one gap at most. -/
theorem incidents_once (apart : r.gaps.Pairwise fun g h => g.span.Apart h.span)
    (loadThreshold : Machine.F64) : ((r.incidentContext loadThreshold).map ContextRow.identity).Perm
      (r.incident.map Incident.identity) := by
  have single : (leftJoin (fun i g => decide (g.span.Contains i.openedUs)) r.incident r.gaps).map
      Prod.fst = r.incident :=
    leftJoin_map_fst fun i _ => HalfOpen.contained_once apart i.openedUs
  have sorted := List.perm_insertionSort (fun c d : ContextRow => c.openedUs ≤ d.openedUs)
    ((leftJoin (fun i g => decide (g.span.Contains i.openedUs)) r.incident r.gaps).map
      (r.contextRow loadThreshold))
  have identities := sorted.map ContextRow.identity
  rw [List.map_map] at identities
  refine identities.trans (List.Perm.of_eq ?_)
  conv_rhs => rw [← single, List.map_map]
  rfl

theorem ramp_counts (apart : r.gaps.Pairwise fun g h => g.span.Apart h.span)
    (regrSlope : List (Machine.F64 × Int) → Option Machine.F64) (dropTsUs windowUs : Int)
    {row : RampRow} (mem : row ∈ r.gatewayRamp regrSlope dropTsUs windowUs) :
    row.observationGapUs = ((Finset.Ico (dropTsUs - windowUs) dropTsUs).filter
      fun u => ∃ g ∈ r.gaps, g.span.Contains u).card := by
  have told : row.observationGapUs = r.observationGapUs dropTsUs windowUs := by
    have listed := (List.mem_insertionSort _).mp mem
    obtain ⟨l, _, rfl⟩ := List.mem_map.mp listed
    rfl
  have spread : (r.gaps.map ObservationGap.span).Pairwise HalfOpen.Apart :=
    List.pairwise_map.mpr apart
  have spans := HalfOpen.sum_overlap (dropTsUs - windowUs) dropTsUs spread
  rw [List.map_map] at spans
  rw [told]
  refine spans.trans ?_
  simp only [List.mem_map, exists_exists_and_eq_and]

theorem gapsTile_of_closed (distinct : r.DistinctEdges) (closed : r.PausesClosed) : r.GapsTile where
  disjoint := gaps_apart distinct closed _
  bounds := fun _ mem => gap_bounds mem
  quiet := fun _ mem _ sample => gap_quiet mem sample
  covered := fun _ _ stride long => covered_once distinct closed stride long
  stopped := fun _ startup _ mp stride kind => stopped_once distinct closed startup mp stride kind
  incidents := incidents_once (gaps_apart distinct closed _)
  ramp := fun regrSlope dropTsUs windowUs _ mem =>
    ramp_counts (gaps_apart distinct closed _) regrSlope dropTsUs windowUs mem

end RecordTables

/-- The gaps of a record tile its silences exactly when no pause is followed by another before
anything has closed it. -/
theorem gaps_tile_iff (r : RecordTables) (distinct : r.DistinctEdges) :
    r.GapsTile ↔ r.PausesClosed := by
  constructor
  · intro tile
    exact RecordTables.pausesClosed_of_apart tile.disjoint
  · exact RecordTables.gapsTile_of_closed distinct

def edgesOnly (edges : List ObservingEdge) : RecordTables := ⟨[], [], [], [], [], edges, []⟩

def pauseThenStartup : RecordTables :=
  edgesOnly [⟨20000000, false, none, .control⟩, ⟨90000000, true, none, .startup⟩]

theorem gaps_tile_iff_pauseThenStartup :
    pauseThenStartup.GapsTile ↔ pauseThenStartup.PausesClosed :=
  gaps_tile_iff pauseThenStartup (by unfold RecordTables.DistinctEdges; decide)

def pausedTwice : RecordTables :=
  edgesOnly [⟨20000000, false, none, .control⟩, ⟨30000000, false, none, .control⟩,
    ⟨90000000, true, none, .control⟩]

/-- Two pauses with nothing between them make two gaps of one silence. -/
theorem repeated_pause_overlaps : pausedTwice.DistinctEdges ∧ ¬ pausedTwice.GapsTile := by
  refine ⟨by unfold RecordTables.DistinctEdges; decide, fun tile => ?_⟩
  have closed := RecordTables.pausesClosed_of_apart tile.disjoint
  obtain ⟨c, closer, after, before⟩ := closed ⟨20000000, false, none, .control⟩ (by decide)
    ⟨30000000, false, none, .control⟩ (by decide) rfl rfl (by decide)
  rcases closer with sample | ⟨e, mem, on, rfl⟩
  · cases sample
  · simp only [pausedTwice, edgesOnly, List.mem_cons, List.not_mem_nil, or_false] at mem
    rcases mem with rfl | rfl | rfl
    · cases on
    · cases on
    · exact absurd before (by decide)

end NetObserver
