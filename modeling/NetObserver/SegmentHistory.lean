import Mathlib.Data.List.MinMax
import Mathlib.Order.Bounds.Basic
import NetObserver.DiagnosticQueries
import NetObserver.EntitySightings

/-! Where the machine has been: the segments of the record with the span of each, and what a window
of the record shows of one. -/

namespace NetObserver

/-- `window_predicate` over the two columns of a row. -/
def HistoryWindow.windowPredicate : HistoryWindow → Int → Int → Bool
  | .at_ tsUs, first, last => decide (first ≤ tsUs) && decide (tsUs ≤ last)
  | .range since until_, first, last => decide (first ≤ until_) && decide (since ≤ last)

structure HistoryRow where
  neighbor : NeighborRow
  openPorts : Nat
  vulns : Nat

structure SegmentRow where
  networkKey : String
  gatewayIp : Option String
  ssidGuess : Option String
  firstSeenUs : Int
  lastSeenUs : Int
  neighbors : Nat

def SegmentRow.newerFirst (a b : SegmentRow) : Bool :=
  b.lastSeenUs < a.lastSeenUs ||
    (a.lastSeenUs == b.lastSeenUs && decide (a.networkKey ≤ b.networkKey))

namespace EntityTables

/-- The instants `segments_sql` unions, each under its segment. -/
def spanTimes (t : EntityTables) : List (String × Int) :=
  t.neighbor.neighbors.map (fun r => (r.networkKey, r.firstSeenUs)) ++
    t.neighbor.neighbors.map (fun r => (r.networkKey, r.lastSeenUs)) ++
    t.neighbor.samples.map fun s => (s.networkKey.getD unknownNetwork, s.tsUs)

def timesOf (t : EntityTables) (key : String) : List Int :=
  (t.spanTimes.filter fun p => p.1 == key).map Prod.snd

/-- The name of the newest link reading in a span that has one. -/
def ssidGuess (links : List LinkSample) (first last : Int) : Option String :=
  let named := links.filter fun l =>
    l.ssid.isSome && decide (first ≤ l.tsUs) && decide (l.tsUs ≤ last)
  (named.mergeSort fun a b => decide (b.tsUs ≤ a.tsUs)).head?.bind LinkSample.ssid

def segmentRow (t : EntityTables) (links : List LinkSample) (key : String) : SegmentRow :=
  let first := ((t.timesOf key).min?).getD 0
  let last := ((t.timesOf key).max?).getD 0
  { networkKey := key
    gatewayIp := (t.neighbor.neighbors.find? fun n => n.networkKey == key && n.mac == key).map
      NeighborRow.ip
    ssidGuess := ssidGuess links first last
    firstSeenUs := first
    lastSeenUs := last
    neighbors := (t.neighbor.neighbors.filter fun n => n.networkKey == key).length }

/-- `segments_sql` with the answer of its query. -/
def segmentsSql (t : EntityTables) (links : List LinkSample) : List SegmentRow :=
  ((t.spanTimes.map Prod.fst).dedup.map (t.segmentRow links)).mergeSort SegmentRow.newerFirst

/-- `history_sql` with the answer of its query; a key that cannot exist is refused. -/
def historySql (t : EntityTables) (network : String) (window : HistoryWindow) :
    Except String (List HistoryRow) :=
  if validNetworkKey network then
    let live := (t.neighbor.neighbors.filter fun n => n.networkKey == network &&
      window.windowPredicate n.firstSeenUs n.lastSeenUs).mergeSort NeighborRow.newerFirst
    .ok (live.map fun n =>
      { neighbor := n
        openPorts := (t.neighborPort.filter fun p => p.networkKey == n.networkKey &&
          p.mac == n.mac && window.windowPredicate p.firstSeenUs p.lastSeenUs).length
        vulns := (t.neighborVuln.filter fun v => v.networkKey == n.networkKey &&
          v.mac == n.mac && window.windowPredicate v.firstSeenUs v.lastSeenUs).length })
  else .error network

end EntityTables

/-- What happens to the record: a call of the store that writes entities, or a prune of the
readings' own table. -/
inductive SegmentStep where
  | write (w : EntityWrite)
  | prune (cutoffUs : Int)

namespace SegmentStep

def apply (t : EntityTables) : SegmentStep → EntityTables
  | write w => t.write w
  | prune cutoffUs =>
    { t with neighbor := { t.neighbor with
        samples := t.neighbor.samples.filter fun s => decide (cutoffUs ≤ s.tsUs) } }

def neighborRows : SegmentStep → List NeighborRow
  | write w => w.neighborRows
  | prune _ => []

def after (steps : List SegmentStep) : EntityTables := steps.foldl apply .empty

end SegmentStep

/-- A reading that no prune behind it took. -/
def KeptReading (steps : List SegmentStep) (n : NeighborsSample) : Prop :=
  ∃ earlier later, steps = earlier ++ .write (.sample n) :: later ∧
    ∀ cutoffUs, .prune cutoffUs ∈ later → cutoffUs ≤ n.tsUs

open SegmentStep

section

variable {steps : List SegmentStep} {r : NeighborRow} {s : NeighborSampleRow} {key : String}

theorem after_neighbors (steps : List SegmentStep) : (after steps).neighbor.neighbors =
    neighborTable.writes [] (steps.flatMap SegmentStep.neighborRows) := by
  have each : ∀ (t : EntityTables) (step : SegmentStep), (apply t step).neighbor.neighbors =
      neighborTable.writes t.neighbor.neighbors step.neighborRows := by
    intro t step
    cases step with
    | write w => exact EntityTables.write_neighbors t w
    | prune _ => rfl
  exact Lifetimes.foldl_writes (fun t : EntityTables => t.neighbor.neighbors) each steps .empty

theorem keptReading_snoc_write {w : EntityWrite} {n : NeighborsSample} :
    KeptReading (steps ++ [.write w]) n ↔ KeptReading steps n ∨ w = .sample n := by
  constructor
  · rintro ⟨earlier, later, split, kept⟩
    rcases List.eq_nil_or_concat' later with rfl | ⟨front, last, rfl⟩
    · obtain ⟨_, same⟩ := List.append_inj' split rfl
      cases same
      exact .inr rfl
    · have whole : steps ++ [.write w] = (earlier ++ .write (.sample n) :: front) ++ [last] := by
        rw [split]
        simp
      obtain ⟨before, _⟩ := List.append_inj' whole rfl
      exact .inl ⟨earlier, front, before, fun c mem => kept c (List.mem_append_left _ mem)⟩
  · rintro (⟨earlier, later, rfl, kept⟩ | rfl)
    · refine ⟨earlier, later ++ [.write w], by simp, fun c mem => ?_⟩
      rcases List.mem_append.mp mem with old | new
      · exact kept c old
      · cases List.mem_singleton.mp new
    · exact ⟨steps, [], rfl, fun c mem => by cases mem⟩

theorem keptReading_snoc_prune {c : Int} {n : NeighborsSample} :
    KeptReading (steps ++ [.prune c]) n ↔ KeptReading steps n ∧ c ≤ n.tsUs := by
  constructor
  · rintro ⟨earlier, later, split, kept⟩
    rcases List.eq_nil_or_concat' later with rfl | ⟨front, last, rfl⟩
    · obtain ⟨_, same⟩ := List.append_inj' split rfl
      cases same
    · have whole : steps ++ [.prune c] = (earlier ++ .write (.sample n) :: front) ++ [last] := by
        rw [split]
        simp
      obtain ⟨before, same⟩ := List.append_inj' whole rfl
      cases same
      exact ⟨⟨earlier, front, before, fun c' mem => kept c' (List.mem_append_left _ mem)⟩,
        kept c (List.mem_append_right _ List.mem_cons_self)⟩
  · rintro ⟨⟨earlier, later, rfl, kept⟩, inside⟩
    refine ⟨earlier, later ++ [.prune c], by simp, fun c' mem => ?_⟩
    rcases List.mem_append.mp mem with old | new
    · exact kept c' old
    · cases List.mem_singleton.mp new
      exact inside

/-- The readings' own table holds the readings no prune took. -/
theorem mem_after_samples (steps : List SegmentStep) {s : NeighborSampleRow} :
    s ∈ (after steps).neighbor.samples ↔ ∃ n, KeptReading steps n ∧ s = n.sampleRow := by
  induction steps using List.reverseRecOn generalizing s with
  | nil =>
    constructor
    · intro mem
      cases mem
    · rintro ⟨n, ⟨earlier, later, split, _⟩, _⟩
      cases earlier <;> cases split
  | append_singleton steps last ih =>
    have next : after (steps ++ [last]) = apply (after steps) last := List.foldl_concat ..
    rw [next]
    cases last with
    | prune c =>
      simp only [apply, List.mem_filter, ih, keptReading_snoc_prune, decide_eq_true_eq]
      constructor
      · rintro ⟨⟨n, kept, rfl⟩, inside⟩
        exact ⟨n, ⟨kept, inside⟩, rfl⟩
      · rintro ⟨n, ⟨kept, inside⟩, rfl⟩
        exact ⟨⟨n, kept, rfl⟩, inside⟩
    | write w =>
      simp only [keptReading_snoc_write]
      cases w with
      | sample n =>
        simp only [apply, EntityTables.write, NeighborsSample.write, List.mem_append, ih,
          List.mem_singleton, EntityWrite.sample.injEq]
        constructor
        · rintro (⟨m, kept, rfl⟩ | rfl)
          · exact ⟨m, .inl kept, rfl⟩
          · exact ⟨n, .inr rfl, rfl⟩
        · rintro ⟨m, kept | rfl, rfl⟩
          · exact .inl ⟨m, kept, rfl⟩
          · exact .inr rfl
      | neighborPort p | neighborVuln p | topologyLink p =>
        simp only [apply, EntityTables.write, ih, reduceCtorEq, or_false]

/-- A device's row is dated by readings of its segment. -/
theorem row_dated (held : r ∈ (after steps).neighbor.neighbors) :
    (∃ n, .write (.sample n) ∈ steps ∧ n.segment = r.networkKey ∧ n.neighbors ≠ [] ∧
      n.tsUs = r.firstSeenUs) ∧
    ∃ n, .write (.sample n) ∈ steps ∧ n.segment = r.networkKey ∧ n.tsUs = r.lastSeenUs := by
  have reading : ∀ w ∈ neighborTable.group (steps.flatMap SegmentStep.neighborRows) r.key,
      ∃ n, SegmentStep.write (.sample n) ∈ steps ∧ n.segment = r.networkKey ∧ n.neighbors ≠ [] ∧
        n.tsUs = w.firstSeenUs ∧ n.tsUs = w.lastSeenUs := by
    intro w mem
    obtain ⟨brought, same⟩ := Lifetimes.mem_group.mp mem
    obtain ⟨step, taken, of⟩ := List.mem_flatMap.mp brought
    rcases step with (n | _ | _ | _) | _
    · obtain ⟨nb, named, rfl⟩ := List.mem_map.mp of
      exact ⟨n, taken, (Prod.mk.inj same).1, List.ne_nil_of_mem named, rfl, rfl⟩
    all_goals cases of
  rw [after_neighbors] at held
  have found := Lifetimes.mem_writes_iff.mp held
  obtain ⟨a, head, first⟩ := Lifetimes.first_of_merged found
  obtain ⟨b, tail, last⟩ := Lifetimes.last_of_merged found
  obtain ⟨n, taken, inside, some_, dated, _⟩ := reading a (List.mem_of_mem_head? head)
  obtain ⟨m, taken', inside', _, _, dated'⟩ := reading b (List.mem_of_getLast? tail)
  exact ⟨⟨n, taken, inside, some_, dated.trans first⟩, m, taken', inside', dated'.trans last⟩

theorem mem_timesOf {t : EntityTables} {u : Int} : u ∈ t.timesOf key ↔
    (∃ r ∈ t.neighbor.neighbors, r.networkKey = key ∧ (r.firstSeenUs = u ∨ r.lastSeenUs = u)) ∨
      ∃ s ∈ t.neighbor.samples, s.networkKey.getD unknownNetwork = key ∧ s.tsUs = u := by
  unfold EntityTables.timesOf EntityTables.spanTimes
  simp only [List.mem_map, List.mem_filter, List.mem_append, beq_iff_eq]
  constructor
  · rintro ⟨_, ⟨(⟨r, held, rfl⟩ | ⟨r, held, rfl⟩) | ⟨s, held, rfl⟩, same⟩, rfl⟩
    · exact .inl ⟨r, held, same, .inl rfl⟩
    · exact .inl ⟨r, held, same, .inr rfl⟩
    · exact .inr ⟨s, held, same, rfl⟩
  · rintro (⟨r, held, same, rfl | rfl⟩ | ⟨s, held, same, rfl⟩)
    · exact ⟨_, ⟨.inl (.inl ⟨r, held, rfl⟩), same⟩, rfl⟩
    · exact ⟨_, ⟨.inl (.inr ⟨r, held, rfl⟩), same⟩, rfl⟩
    · exact ⟨_, ⟨.inr ⟨s, held, rfl⟩, same⟩, rfl⟩

theorem mem_spanKeys {t : EntityTables} :
    key ∈ t.spanTimes.map Prod.fst ↔ ∃ u, u ∈ t.timesOf key := by
  unfold EntityTables.timesOf
  simp only [List.mem_map, List.mem_filter, beq_iff_eq]
  constructor
  · rintro ⟨p, held, rfl⟩
    exact ⟨p.2, p, ⟨held, rfl⟩, rfl⟩
  · rintro ⟨_, p, ⟨held, rfl⟩, rfl⟩
    exact ⟨p, held, rfl⟩

/-- A segment's span reaches from the least to the greatest of its instants. -/
theorem segmentRow_bounds {t : EntityTables} (links : List LinkSample) {u : Int}
    (some_ : u ∈ t.timesOf key) :
    IsLeast {u | u ∈ t.timesOf key} (t.segmentRow links key).firstSeenUs ∧
      IsGreatest {u | u ∈ t.timesOf key} (t.segmentRow links key).lastSeenUs := by
  unfold EntityTables.segmentRow
  dsimp only
  constructor
  · cases least : (t.timesOf key).min? with
    | none =>
      rw [List.min?_eq_none_iff.mp least] at some_
      cases some_
    | some a => exact List.min?_eq_some_iff.mp least
  · cases greatest : (t.timesOf key).max? with
    | none =>
      rw [List.max?_eq_none_iff.mp greatest] at some_
      cases some_
    | some b => exact List.max?_eq_some_iff.mp greatest

theorem mem_segmentsSql {t : EntityTables} {links : List LinkSample} {row : SegmentRow} :
    row ∈ t.segmentsSql links ↔
      ∃ key, (∃ u, u ∈ t.timesOf key) ∧ row = t.segmentRow links key := by
  unfold EntityTables.segmentsSql
  simp only [List.mem_mergeSort, List.mem_map, List.mem_dedup]
  constructor
  · rintro ⟨key, held, rfl⟩
    exact ⟨key, mem_spanKeys.mp (List.mem_map.mpr held), rfl⟩
  · rintro ⟨key, held, rfl⟩
    exact ⟨key, List.mem_map.mp (mem_spanKeys.mpr held), rfl⟩

theorem segmentsSql_keys_nodup (t : EntityTables) (links : List LinkSample) :
    ((t.segmentsSql links).map SegmentRow.networkKey).Nodup := by
  have perm : ((t.segmentsSql links).map SegmentRow.networkKey).Perm
      (t.spanTimes.map Prod.fst).dedup := by
    have same : ((t.spanTimes.map Prod.fst).dedup.map (t.segmentRow links)).map
        SegmentRow.networkKey = (t.spanTimes.map Prod.fst).dedup := by
      rw [List.map_map]
      exact List.map_id _
    have sorted := (List.mergeSort_perm ((t.spanTimes.map Prod.fst).dedup.map (t.segmentRow links))
      SegmentRow.newerFirst).map SegmentRow.networkKey
    rw [same] at sorted
    exact sorted
  exact perm.nodup_iff.mpr (List.nodup_dedup _)

/-- The most recent segments come first. -/
theorem segmentsSql_newest (t : EntityTables) (links : List LinkSample) :
    (t.segmentsSql links).Pairwise fun a b => b.lastSeenUs ≤ a.lastSeenUs := by
  have sorted : (t.segmentsSql links).Pairwise fun a b => SegmentRow.newerFirst a b = true := by
    apply List.pairwise_mergeSort
    · intro a b c
      simp only [SegmentRow.newerFirst, Bool.or_eq_true, decide_eq_true_eq, Bool.and_eq_true,
        beq_iff_eq]
      rintro (newer | ⟨same, le⟩) (newer' | ⟨same', le'⟩)
      · exact .inl (by omega)
      · exact .inl (by omega)
      · exact .inl (by omega)
      · exact .inr ⟨same.trans same', le_trans le le'⟩
    · intro a b
      simp only [SegmentRow.newerFirst, Bool.or_eq_true, decide_eq_true_eq, Bool.and_eq_true,
        beq_iff_eq]
      rcases Int.lt_trichotomy a.lastSeenUs b.lastSeenUs with older | same | newer
      · exact .inr (.inl older)
      · rcases le_total a.networkKey b.networkKey with le | le
        · exact .inl (.inr ⟨same, le⟩)
        · exact .inr (.inr ⟨same.symm, le⟩)
      · exact .inl (.inl newer)
  apply sorted.imp
  intro a b before
  simp only [SegmentRow.newerFirst, Bool.or_eq_true, decide_eq_true_eq, Bool.and_eq_true,
    beq_iff_eq] at before
  omega

theorem timesOf_read {u : Int} (timed : u ∈ (after steps).timesOf key) :
    ∃ n, .write (.sample n) ∈ steps ∧ n.segment = key ∧ n.tsUs = u := by
  rcases mem_timesOf.mp timed with ⟨r, held, rfl, rfl | rfl⟩ | ⟨s, held, rfl, rfl⟩
  · obtain ⟨⟨n, taken, inside, _, dated⟩, _⟩ := row_dated held
    exact ⟨n, taken, inside, dated⟩
  · obtain ⟨_, n, taken, inside, dated⟩ := row_dated held
    exact ⟨n, taken, inside, dated⟩
  · obtain ⟨n, ⟨earlier, later, rfl, _⟩, rfl⟩ := (mem_after_samples steps).mp held
    exact ⟨n, List.mem_append_right _ List.mem_cons_self, rfl, rfl⟩

/-- A segment is timed by a reading that is kept or that named a device of it. -/
theorem exists_time : (∃ u, u ∈ (after steps).timesOf key) ↔ ∃ n, n.segment = key ∧
    (KeptReading steps n ∨ .write (.sample n) ∈ steps ∧ n.neighbors ≠ []) := by
  constructor
  · rintro ⟨u, timed⟩
    rcases mem_timesOf.mp timed with ⟨r, held, rfl, _⟩ | ⟨s, held, rfl, _⟩
    · obtain ⟨⟨n, taken, inside, some_, _⟩, _⟩ := row_dated held
      exact ⟨n, inside, .inr ⟨taken, some_⟩⟩
    · obtain ⟨n, kept, rfl⟩ := (mem_after_samples steps).mp held
      exact ⟨n, rfl, .inl kept⟩
  · rintro ⟨n, rfl, kept | ⟨taken, some_⟩⟩
    · have listed := (mem_after_samples steps).mpr ⟨n, kept, rfl⟩
      exact ⟨n.tsUs, mem_timesOf.mpr (.inr ⟨_, listed, rfl, rfl⟩)⟩
    · obtain ⟨nb, named⟩ := List.exists_mem_of_ne_nil _ some_
      have brought : n.neighborRow nb ∈ steps.flatMap SegmentStep.neighborRows :=
        List.mem_flatMap.mpr ⟨_, taken, List.mem_map_of_mem named⟩
      obtain ⟨r, held, same, _⟩ := Lifetimes.exists_row (T := neighborTable) brought rfl
      rw [← after_neighbors] at held
      exact ⟨r.firstSeenUs, mem_timesOf.mpr (.inl ⟨r, held, (Prod.mk.inj same).1, .inl rfl⟩)⟩

/-- The devices a run ever named under a segment. -/
def devicesNamed (steps : List SegmentStep) (key : String) : List String :=
  ((steps.flatMap SegmentStep.neighborRows).filter fun r => r.networkKey == key).map NeighborRow.mac

/-- One row is kept of each device of a segment, prunes or not. -/
theorem devices_counted (steps : List SegmentStep) (key : String) :
    ((after steps).neighbor.neighbors.filter fun n => n.networkKey == key).length =
      (devicesNamed steps key).dedup.length := by
  rw [after_neighbors]
  have one := Lifetimes.oneRowPerKey (T := neighborTable) (steps.flatMap SegmentStep.neighborRows)
  generalize neighborTable.writes [] (steps.flatMap SegmentStep.neighborRows) = rows at one
  have distinct : ((rows.filter fun n => n.networkKey == key).map NeighborRow.mac).Nodup := by
    have keys : ((rows.filter fun n => n.networkKey == key).map NeighborRow.key).Nodup :=
      one.distinct.sublist (List.filter_sublist.map _)
    refine List.Nodup.of_map (fun mac => (key, mac)) ?_
    have same : ((rows.filter fun n => n.networkKey == key).map NeighborRow.mac).map
        (fun mac => (key, mac)) =
          (rows.filter fun n => n.networkKey == key).map NeighborRow.key := by
      rw [List.map_map]
      apply List.map_congr_left
      intro r held
      have inside := beq_iff_eq.mp (List.mem_filter.mp held).2
      rw [Function.comp_apply, NeighborRow.key, inside]
    rw [same]
    exact keys
  have perm : ((rows.filter fun n => n.networkKey == key).map NeighborRow.mac).Perm
      (devicesNamed steps key).dedup := by
    refine (List.perm_ext_iff_of_nodup distinct (List.nodup_dedup _)).mpr fun mac => ?_
    have named := one.keys (key, mac)
    simp only [devicesNamed, List.mem_map, List.mem_filter, List.mem_dedup, beq_iff_eq]
    constructor
    · rintro ⟨r, ⟨held, inside⟩, rfl⟩
      obtain ⟨w, brought, same⟩ := named.mp ⟨r, held, Prod.ext inside rfl⟩
      obtain ⟨inside', mac'⟩ := Prod.mk.inj same
      exact ⟨w, ⟨brought, inside'⟩, mac'⟩
    · rintro ⟨w, ⟨brought, inside⟩, rfl⟩
      obtain ⟨r, held, same⟩ := named.mpr ⟨w, brought, Prod.ext inside rfl⟩
      obtain ⟨inside', mac'⟩ := Prod.mk.inj same
      exact ⟨r, ⟨held, inside'⟩, mac'⟩
  have counted := perm.length_eq
  rw [List.length_map] at counted
  exact counted

/-- What the history of a segment shows beside its row in the list. -/
structure HistoryAgrees (t : EntityTables) (row : SegmentRow) : Prop where
  instant : ∀ u, t.historySql row.networkKey (.at_ u) = t.historySql row.networkKey (.range u u)
  covered : ∀ since until_, since ≤ row.firstSeenUs → row.lastSeenUs ≤ until_ →
    ∃ answer, t.historySql row.networkKey (.range since until_) = .ok answer ∧
      answer.length = row.neighbors
  missed : ∀ since until_, until_ < row.firstSeenUs ∨ row.lastSeenUs < since →
    t.historySql row.networkKey (.range since until_) = .ok []

theorem historyAgrees (t : EntityTables) (links : List LinkSample)
    (valid : validNetworkKey key = true) (some_ : ∃ u, u ∈ t.timesOf key) :
    HistoryAgrees t (t.segmentRow links key) := by
  obtain ⟨u, timed⟩ := some_
  obtain ⟨least, greatest⟩ := segmentRow_bounds links timed
  have within : ∀ r ∈ t.neighbor.neighbors, r.networkKey = key →
      (t.segmentRow links key).firstSeenUs ≤ r.firstSeenUs ∧
        (t.segmentRow links key).firstSeenUs ≤ r.lastSeenUs ∧
        r.firstSeenUs ≤ (t.segmentRow links key).lastSeenUs ∧
        r.lastSeenUs ≤ (t.segmentRow links key).lastSeenUs := by
    intro r held inside
    have first := mem_timesOf.mpr (.inl ⟨r, held, inside, .inl rfl⟩)
    have last := mem_timesOf.mpr (.inl ⟨r, held, inside, .inr rfl⟩)
    exact ⟨least.2 first, least.2 last, greatest.2 first, greatest.2 last⟩
  have accepted : validNetworkKey (t.segmentRow links key).networkKey = true := valid
  refine ⟨fun u => rfl, ?_, ?_⟩
  · intro since until_ early late
    have all : (t.neighbor.neighbors.filter fun n => n.networkKey == key &&
        (HistoryWindow.range since until_).windowPredicate n.firstSeenUs n.lastSeenUs) =
        t.neighbor.neighbors.filter fun n => n.networkKey == key := by
      apply List.filter_congr
      intro r held
      cases inside : r.networkKey == key with
      | false => rfl
      | true =>
        obtain ⟨_, low, high, _⟩ := within r held (beq_iff_eq.mp inside)
        rw [Bool.true_and, HistoryWindow.windowPredicate, Bool.and_eq_true, decide_eq_true_eq,
          decide_eq_true_eq]
        constructor <;> omega
    unfold EntityTables.historySql
    rw [if_pos accepted]
    refine ⟨_, rfl, ?_⟩
    rw [List.length_map, List.length_mergeSort]
    exact congrArg List.length all
  · intro since until_ apart
    have none_ : (t.neighbor.neighbors.filter fun n => n.networkKey == key &&
        (HistoryWindow.range since until_).windowPredicate n.firstSeenUs n.lastSeenUs) = [] := by
      rw [List.filter_eq_nil_iff]
      intro r held live
      simp only [HistoryWindow.windowPredicate, Bool.and_eq_true, beq_iff_eq,
        decide_eq_true_eq] at live
      obtain ⟨low, _, _, high⟩ := within r held live.1
      omega
    have empty : (t.neighbor.neighbors.filter fun n => n.networkKey ==
        (t.segmentRow links key).networkKey &&
        (HistoryWindow.range since until_).windowPredicate n.firstSeenUs n.lastSeenUs) = [] := none_
    unfold EntityTables.historySql
    rw [if_pos accepted, empty]
    simp only [List.mergeSort_nil, List.map_nil]

/-- What the list of segments tells of a run of writes and prunes. -/
structure SegmentsTell (steps : List SegmentStep) (rows : List SegmentRow) : Prop where
  distinct : (rows.map SegmentRow.networkKey).Nodup
  newest : rows.Pairwise fun a b => b.lastSeenUs ≤ a.lastSeenUs
  listed : ∀ key, key ∈ rows.map SegmentRow.networkKey ↔ ∃ n, n.segment = key ∧
    (KeptReading steps n ∨ .write (.sample n) ∈ steps ∧ n.neighbors ≠ [])
  dated : ∀ row ∈ rows,
    (∃ n, .write (.sample n) ∈ steps ∧ n.segment = row.networkKey ∧ n.tsUs = row.firstSeenUs) ∧
      ∃ n, .write (.sample n) ∈ steps ∧ n.segment = row.networkKey ∧ n.tsUs = row.lastSeenUs
  spanned : ∀ row ∈ rows, ∀ n, KeptReading steps n → n.segment = row.networkKey →
    row.firstSeenUs ≤ n.tsUs ∧ n.tsUs ≤ row.lastSeenUs
  devices : ∀ row ∈ rows, row.neighbors = (devicesNamed steps row.networkKey).dedup.length
  history : ∀ row ∈ rows, validNetworkKey row.networkKey = true → HistoryAgrees (after steps) row

/-- The list of segments over any run of writes, in whatever order they are stamped, and prunes:
each network that a device was ever named on or a reading is kept of is in it once, with a span that
begins and ends at readings of it and has every kept one inside, and the history of that span shows
as many devices as the list counts, that of any window beside it none. -/
theorem segments_tell (steps : List SegmentStep) (links : List LinkSample) :
    SegmentsTell steps ((after steps).segmentsSql links) := by
  refine ⟨segmentsSql_keys_nodup _ links, segmentsSql_newest _ links, ?_, ?_, ?_, ?_, ?_⟩
  · intro key
    rw [← exists_time]
    constructor
    · intro mem
      obtain ⟨row, listed, rfl⟩ := List.mem_map.mp mem
      obtain ⟨key, timed, rfl⟩ := mem_segmentsSql.mp listed
      exact timed
    · intro timed
      exact List.mem_map.mpr ⟨_, mem_segmentsSql.mpr ⟨key, timed, rfl⟩, rfl⟩
  · intro row listed
    obtain ⟨key, ⟨u, timed⟩, rfl⟩ := mem_segmentsSql.mp listed
    obtain ⟨least, greatest⟩ := segmentRow_bounds links timed
    exact ⟨timesOf_read least.1, timesOf_read greatest.1⟩
  · intro row listed n kept inside
    obtain ⟨key, ⟨u, timed⟩, rfl⟩ := mem_segmentsSql.mp listed
    obtain ⟨least, greatest⟩ := segmentRow_bounds links timed
    have own : n.tsUs ∈ (after steps).timesOf key :=
      mem_timesOf.mpr (.inr ⟨_, (mem_after_samples steps).mpr ⟨n, kept, rfl⟩, inside, rfl⟩)
    exact ⟨least.2 own, greatest.2 own⟩
  · intro row listed
    obtain ⟨key, _, rfl⟩ := mem_segmentsSql.mp listed
    exact devices_counted steps key
  · intro row listed valid
    obtain ⟨key, timed, rfl⟩ := mem_segmentsSql.mp listed
    exact historyAgrees _ links valid timed

end

end NetObserver
