import NetObserver.IncidentViews

/-! The tables a startup closes incidents by, one statement at a time. -/

namespace NetObserver

/-- The tables `latest_sample_ts_us` reads. -/
inductive SampleTable where
  | linkSample
  | proxySample
  | dnsSample
  | routeEvent
  | hostSample
  | wifiSample
  | airSample
  | airAp
  | neighborSample
  | connectionSample
  | singboxLogSample
  | portalSample
deriving DecidableEq

def sampleTables : List SampleTable :=
  [.linkSample, .proxySample, .dnsSample, .routeEvent, .hostSample, .wifiSample, .airSample,
    .airAp, .neighborSample, .connectionSample, .singboxLogSample, .portalSample]

def prunableTables : List SampleTable :=
  [.connectionSample, .airSample, .airAp, .wifiSample, .neighborSample, .singboxLogSample,
    .portalSample]

/-- A row of a sample table, of which only `ts_us` is read here. -/
abbrev SampleRow := SampleTable × Int

/-- What `write_sample` inserts into the sample tables, statement by statement. A tick of the
flow table is one transaction, and a scan's access points follow the row of the scan. -/
def Sample.inserts : Sample → List (List SampleRow)
  | .link l => [[(.linkSample, l.tsUs)]]
  | .proxy p => [[(.proxySample, p.tsUs)]]
  | .dns d => [[(.dnsSample, d.tsUs)]]
  | .route r => [[(.routeEvent, r.tsUs)]]
  | .host h => [[(.hostSample, h.tsUs)]]
  | .wifi w => [[(.wifiSample, w.tsUs)]]
  | .neighbors n => [[(.neighborSample, n.tsUs)]]
  | .air a => [(.airSample, a.tsUs)] :: a.aps.map fun _ => [(.airAp, a.tsUs)]
  | .connections c =>
    [if c.rows.isEmpty then [(.connectionSample, c.tsUs)]
      else c.rows.map fun _ => (.connectionSample, c.tsUs)]
  | .singboxLog s => [[(.singboxLogSample, s.tsUs)]]
  | .portal p => [[(.portalSample, p.tsUs)]]

structure IncidentRecord where
  samples : List SampleRow
  incidents : List Incident
  fired : List TriggerFired

/-- One write of the recording handler. -/
inductive IncidentWrite where
  | openIncident (i : Incident)
  | writeTriggerFired (t : TriggerFired)
  | closeIncident (id : String) (closedUs : Int)

/-- The writes `RecordHandler` makes for a call, each of them tried whatever became of the one
before. -/
def HandlerCall.writes : HandlerCall → List IncidentWrite
  | .onFire incidentId tsUs detail =>
    let triggerId := ruleOf incidentId
    [.openIncident ⟨incidentId, tsUs, none, triggerId, detail⟩,
      .writeTriggerFired ⟨tsUs, triggerId, incidentId, detail⟩]
  | .onClear incidentId tsUs => [.closeIncident incidentId tsUs]

namespace IncidentRecord

def empty : IncidentRecord := ⟨[], [], []⟩

/-- `write_sample` stops at the first statement that fails, `landed` of them done. -/
def writeSample (r : IncidentRecord) (sample : Sample) (landed : Nat) : IncidentRecord :=
  { r with samples := r.samples ++ (sample.inserts.take landed).flatten }

def write (r : IncidentRecord) : IncidentWrite → IncidentRecord
  | .openIncident i =>
    if r.incidents.any fun row => row.id == i.id then r
    else { r with incidents := r.incidents ++ [i] }
  | .writeTriggerFired t => { r with fired := r.fired ++ [t] }
  | .closeIncident id closedUs =>
    { r with incidents := IncidentViews.closeRows id closedUs r.incidents }

def stamps (r : IncidentRecord) (table : SampleTable) : List Int :=
  r.samples.filterMap fun row => if row.1 = table then some row.2 else none

/-- The maximum of the tables' own maxima; an empty table gives none. -/
def latestSampleTsUs (r : IncidentRecord) : Option Int :=
  (sampleTables.filterMap fun table => (r.stamps table).max?).max?

def closeOpenIncidents (r : IncidentRecord) (tsUs : Int) : IncidentRecord :=
  { r with
    incidents := r.incidents.map fun i =>
      if i.closedUs = none then { i with closedUs := some tsUs } else i }

/-- A table outside the allow-list is refused and nothing is run. -/
def pruneOlderThan (r : IncidentRecord) (table : SampleTable) (cutoffUs : Int) : IncidentRecord :=
  if table ∈ prunableTables then
    { r with samples := r.samples.filter fun row => !(row.1 = table && row.2 < cutoffUs) }
  else r

/-- The law of the incident table: every row closed, none before it was opened. -/
def Ordered (r : IncidentRecord) : Prop :=
  ∀ i ∈ r.incidents, ∃ closedUs, i.closedUs = some closedUs ∧ i.openedUs ≤ closedUs

end IncidentRecord

theorem mem_sampleTables (table : SampleTable) : table ∈ sampleTables := by
  cases table <;> simp [sampleTables]

/-- A write of which one statement is done leaves a row of the sample's own instant. -/
theorem Sample.exists_landed (sample : Sample) {landed : Nat} (some_ : 0 < landed) :
    ∃ table, (table, sample.tsUs) ∈ (sample.inserts.take landed).flatten := by
  obtain ⟨n, rfl⟩ : ∃ n, landed = n + 1 := ⟨landed - 1, by omega⟩
  cases sample with
  | connections c =>
    refine ⟨.connectionSample, ?_⟩
    cases rows : c.rows with
    | nil => simp [inserts, tsUs, rows]
    | cons row rest => simp [inserts, tsUs, rows]
  | air a => exact ⟨.airSample, by simp [inserts, tsUs]⟩
  | _ => exact ⟨_, by simp [inserts, tsUs]; rfl⟩

namespace IncidentRecord

theorem write_samples (r : IncidentRecord) (w : IncidentWrite) :
    (r.write w).samples = r.samples := by
  cases w with
  | openIncident i =>
    simp only [write]
    split <;> rfl
  | writeTriggerFired t => rfl
  | closeIncident id closedUs => rfl

theorem pruneOlderThan_incidents (r : IncidentRecord) (table : SampleTable) (cutoffUs : Int) :
    (r.pruneOlderThan table cutoffUs).incidents = r.incidents := by
  unfold pruneOlderThan
  split <;> rfl

/-- A prune keeps the rows that are not before its cutoff, of whatever table. -/
theorem mem_pruneOlderThan {r : IncidentRecord} {row : SampleRow} {cutoffUs : Int}
    (there : row ∈ r.samples) (late : cutoffUs ≤ row.2) (table : SampleTable) :
    row ∈ (r.pruneOlderThan table cutoffUs).samples := by
  unfold pruneOlderThan
  split
  next =>
    have kept : ¬row.1 = table ∨ cutoffUs ≤ row.2 := .inr late
    exact List.mem_filter.mpr ⟨there, by simpa using kept⟩
  next => exact there

theorem mem_stamps {r : IncidentRecord} {table : SampleTable} {tsUs : Int} :
    tsUs ∈ r.stamps table ↔ (table, tsUs) ∈ r.samples := by
  simp only [stamps, List.mem_filterMap, Option.ite_none_right_eq_some, Option.some.injEq]
  constructor
  · rintro ⟨row, mem, rfl, rfl⟩
    exact mem
  · intro mem
    exact ⟨_, mem, rfl, rfl⟩

theorem latestSampleTsUs_eq_none {r : IncidentRecord} :
    r.latestSampleTsUs = none ↔ r.samples = [] := by
  rw [latestSampleTsUs, List.max?_eq_none_iff, List.filterMap_eq_nil_iff]
  constructor
  · intro empty
    refine List.eq_nil_iff_forall_not_mem.mpr fun row mem => ?_
    have rowless := empty row.1 (mem_sampleTables row.1)
    have none := List.eq_nil_iff_forall_not_mem.mp (List.max?_eq_none_iff.mp rowless)
    exact none row.2 (mem_stamps.mpr mem)
  · intro empty table _
    simp [stamps, empty]

/-- What the read of the newest sample gives is the stamp of some row and none is later. -/
theorem latestSampleTsUs_eq_some {r : IncidentRecord} {newest : Int}
    (read : r.latestSampleTsUs = some newest) :
    (∃ row ∈ r.samples, row.2 = newest) ∧ ∀ row ∈ r.samples, row.2 ≤ newest := by
  obtain ⟨mem, most⟩ := List.max?_eq_some_iff.mp read
  obtain ⟨table, _, own⟩ := List.mem_filterMap.mp mem
  have here := mem_stamps.mp (List.max?_eq_some_iff.mp own).1
  refine ⟨⟨_, here, rfl⟩, fun row there => ?_⟩
  cases top : (r.stamps row.1).max? with
  | none =>
    have rowless := List.max?_eq_none_iff.mp top
    exact absurd (mem_stamps.mpr there) (rowless ▸ List.not_mem_nil)
  | some most_ =>
    have below := (List.max?_eq_some_iff.mp top).2 row.2 (mem_stamps.mpr there)
    have bound := most most_ (List.mem_filterMap.mpr ⟨row.1, mem_sampleTables row.1, top⟩)
    omega

theorem le_latestSampleTsUs {r : IncidentRecord} {newest tsUs : Int}
    (read : r.latestSampleTsUs = some newest) :
    tsUs ≤ newest ↔ ∃ row ∈ r.samples, tsUs ≤ row.2 := by
  obtain ⟨⟨row, mem, rfl⟩, most⟩ := latestSampleTsUs_eq_some read
  constructor
  · intro below
    exact ⟨row, mem, below⟩
  · rintro ⟨other, there, below⟩
    have bound := most other there
    omega

/-- With no write refused for another reason than its key, the handler's writes leave the tables
as the handler told of the call leaves them. -/
theorem foldl_writes (cap : Nat) (v : IncidentViews) (samples : List SampleRow)
    (call : HandlerCall) :
    call.writes.foldl write ⟨samples, v.incidents, v.fired⟩ =
      ⟨samples, (v.handle cap .record call).incidents, (v.handle cap .record call).fired⟩ := by
  cases call with
  | onFire id tsUs detail =>
    by_cases known : (v.incidents.any fun row => row.id == id) = true
    all_goals
      simp [HandlerCall.writes, write, IncidentViews.handle, IncidentViews.recordOnFire,
        IncidentViews.openIncident, IncidentViews.writeTriggerFired, known]
  | onClear id tsUs => rfl

end IncidentRecord

end NetObserver
