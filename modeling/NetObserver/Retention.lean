import NetObserver.IncidentRecord
import NetObserver.RecordQueries
import NetObserver.Transaction

/-! Retention: what a prune takes from the record, the bracket it leaves, and what it cannot
touch. -/

namespace NetObserver

open Machine Relational Transaction

def SampleTable.name : SampleTable → String
  | .linkSample => "link_sample"
  | .proxySample => "proxy_sample"
  | .dnsSample => "dns_sample"
  | .routeEvent => "route_event"
  | .hostSample => "host_sample"
  | .wifiSample => "wifi_sample"
  | .airSample => "air_sample"
  | .airAp => "air_ap"
  | .neighborSample => "neighbor_sample"
  | .connectionSample => "connection_sample"
  | .singboxLogSample => "singbox_log_sample"
  | .portalSample => "portal_sample"

inductive StoreError where
  | notPrunable (table : String)
  | database (message : String)

/-- Which statement of a prune fails, if one does. A failed checkpoint behind it is only warned
of and moves no row. -/
structure PruneFaults where
  begins : Option StoreError
  deletes : Option StoreError
  inserts : Option StoreError
  commits : Option StoreError

def PruneFaults.none : PruneFaults := ⟨.none, .none, .none, .none⟩

namespace Database

/-- The `ts_us` column of a sample table. -/
def stamps (db : Database) : SampleTable → List Int
  | .linkSample => db.record.linkSample.map LinkSample.tsUs
  | .proxySample => db.record.proxySample.map ProxySample.tsUs
  | .dnsSample => db.record.dnsSample.map DnsSample.tsUs
  | .routeEvent => db.record.routeEvent.map RouteEvent.tsUs
  | .hostSample => db.record.hostSample.map HostSample.tsUs
  | .wifiSample => db.wifiSample.map WifiSample.tsUs
  | .airSample => db.airSample.map AirSampleRow.tsUs
  | .airAp => db.airAp.map AirApRow.tsUs
  | .neighborSample => db.neighborSample.map NeighborSampleRow.tsUs
  | .connectionSample => db.connectionSample.map ConnectionSampleRow.tsUs
  | .singboxLogSample => db.singboxLogSample.map SingboxLogSample.tsUs
  | .portalSample => db.portalSample.map PortalSample.tsUs

def keepSince {α : Type} (time : α → Int) (cutoffUs : Int) (rows : List α) : List α :=
  rows.filter fun r => cutoffUs ≤ time r

/-- `DELETE FROM table WHERE ts_us < cutoff`. -/
def deleteOlder (db : Database) (table : SampleTable) (cutoffUs : Int) : Database :=
  match table with
  | .linkSample => { db with
      record.linkSample := keepSince LinkSample.tsUs cutoffUs db.record.linkSample }
  | .proxySample => { db with
      record.proxySample := keepSince ProxySample.tsUs cutoffUs db.record.proxySample }
  | .dnsSample => { db with
      record.dnsSample := keepSince DnsSample.tsUs cutoffUs db.record.dnsSample }
  | .routeEvent => { db with
      record.routeEvent := keepSince RouteEvent.tsUs cutoffUs db.record.routeEvent }
  | .hostSample => { db with
      record.hostSample := keepSince HostSample.tsUs cutoffUs db.record.hostSample }
  | .wifiSample => { db with wifiSample := keepSince WifiSample.tsUs cutoffUs db.wifiSample }
  | .airSample => { db with airSample := keepSince AirSampleRow.tsUs cutoffUs db.airSample }
  | .airAp => { db with airAp := keepSince AirApRow.tsUs cutoffUs db.airAp }
  | .neighborSample => { db with
      neighborSample := keepSince NeighborSampleRow.tsUs cutoffUs db.neighborSample }
  | .connectionSample => { db with
      connectionSample := keepSince ConnectionSampleRow.tsUs cutoffUs db.connectionSample }
  | .singboxLogSample => { db with
      singboxLogSample := keepSince SingboxLogSample.tsUs cutoffUs db.singboxLogSample }
  | .portalSample => { db with
      portalSample := keepSince PortalSample.tsUs cutoffUs db.portalSample }

def olderRows (db : Database) (table : SampleTable) (cutoffUs : Int) : Nat :=
  (db.stamps table).countP fun t => t < cutoffUs

/-- The delete and its bracket, which a prune that deletes nothing does not leave. -/
def pruneStatements (faults : PruneFaults) (nowUs : Int) (table : SampleTable) (cutoffUs : Int) :
    Statement Database StoreError Nat := do
  let deleted ← statement faults.deletes fun db =>
    (db.olderRows table cutoffUs, db.deleteOlder table cutoffUs)
  if deleted = 0 then return 0
  statement faults.inserts fun db =>
    (deleted, { db with recordPrune := db.recordPrune ++ [⟨nowUs, table.name, cutoffUs, deleted⟩] })

/-- `prune_older_than`: the name is looked up in the allow-list before any statement. -/
def pruneOlderThan (db : Database) (faults : PruneFaults) (nowUs : Int) (table : String)
    (cutoffUs : Int) : Database × Except StoreError Nat :=
  match prunableTables.find? fun t => t.name == table with
  | none => (db, .error (.notPrunable table))
  | some t => transact faults.begins (pruneStatements faults nowUs t cutoffUs) faults.commits db

end Database

structure PruneCall where
  table : String
  cutoffUs : Int
  nowUs : Int
  faults : PruneFaults

def Database.runPrunes (db : Database) (calls : List PruneCall) : Database :=
  calls.foldl (fun db c => (db.pruneOlderThan c.faults c.nowUs c.table c.cutoffUs).1) db

/-- The rows the brackets of a table account for. -/
def bracketedRows (brackets : List RecordPruneRow) (table : SampleTable) : Nat :=
  ((brackets.filter fun r => r.table == table.name).map RecordPruneRow.deleted).sum

def Database.deletedRows (db : Database) (table : SampleTable) : Nat :=
  bracketedRows db.recordPrune table

theorem SampleTable.name_injective : Function.Injective SampleTable.name := by
  have found (t : SampleTable) : sampleTables.find? (fun u => u.name == t.name) = some t := by
    cases t <;> rfl
  intro a b same
  have left := found a
  rw [same, found b] at left
  exact (Option.some.inj left).symm

theorem mem_prunable_of_find {name : String} {t : SampleTable}
    (found : prunableTables.find? (fun t => t.name == name) = some t) :
    t ∈ prunableTables ∧ t.name = name := by
  have named := List.find?_some found
  exact ⟨List.mem_of_find?_eq_some found, by simpa using named⟩

namespace Database

theorem map_keepSince {α : Type} (time : α → Int) (cutoffUs : Int) (rows : List α) :
    (keepSince time cutoffUs rows).map time = (rows.map time).filter fun t => cutoffUs ≤ t := by
  unfold keepSince
  rw [List.filter_map]
  rfl

/-- A delete takes the old rows of its table and none of another. -/
theorem stamps_deleteOlder (db : Database) (table other : SampleTable) (cutoffUs : Int) :
    (db.deleteOlder table cutoffUs).stamps other =
      if other = table then (db.stamps table).filter (fun t => cutoffUs ≤ t)
      else db.stamps other := by
  by_cases same : other = table
  · rw [if_pos same, same]
    cases table <;> exact map_keepSince _ _ _
  · rw [if_neg same]
    cases table <;> cases other <;> first | rfl | exact absurd rfl same

theorem recordPrune_deleteOlder (db : Database) (table : SampleTable) (cutoffUs : Int) :
    (db.deleteOlder table cutoffUs).recordPrune = db.recordPrune := by
  cases table <;> rfl

/-- What a prunable table's delete cannot reach: the tables the diagnoses derive the record's
gaps and layers from. -/
theorem record_deleteOlder (db : Database) {table : SampleTable} (allowed : table ∈ prunableTables)
    (cutoffUs : Int) :
    (db.deleteOlder table cutoffUs).record = db.record ∧
      (db.deleteOlder table cutoffUs).probingEdge = db.probingEdge := by
  cases table <;> first | exact ⟨rfl, rfl⟩ | exact absurd allowed (by decide)

theorem length_filter_add_countP (stamps : List Int) (cutoffUs : Int) :
    (stamps.filter fun t => cutoffUs ≤ t).length + stamps.countP (fun t => t < cutoffUs) =
      stamps.length := by
  rw [← List.countP_eq_length_filter, List.length_eq_countP_add_countP fun t => cutoffUs ≤ t]
  congr 1
  refine List.countP_congr fun t _ => ?_
  simp

/-- A call that is through: the delete, and the bracket that counts it. -/
inductive Pruned (db : Database) (t : SampleTable) (cutoffUs nowUs : Int) : Database → Prop
  | nothing (none_older : db.olderRows t cutoffUs = 0) :
    Pruned db t cutoffUs nowUs (db.deleteOlder t cutoffUs)
  | bracketed (some_older : db.olderRows t cutoffUs ≠ 0) :
    Pruned db t cutoffUs nowUs { db.deleteOlder t cutoffUs with
      recordPrune := db.recordPrune ++ [⟨nowUs, t.name, cutoffUs, db.olderRows t cutoffUs⟩] }

theorem pruneStatements_ok {db after : Database} {faults : PruneFaults} {nowUs cutoffUs : Int}
    {t : SampleTable} {n : Nat}
    (ran : pruneStatements faults nowUs t cutoffUs db = .ok (n, after)) :
    n = db.olderRows t cutoffUs ∧ Pruned db t cutoffUs nowUs after := by
  unfold pruneStatements at ran
  obtain ⟨deleted, mid, first, rest⟩ := bind_ok ran
  obtain ⟨-, done⟩ := statement_ok first
  obtain ⟨rfl, rfl⟩ := Prod.mk.inj done
  by_cases nothing : db.olderRows t cutoffUs = 0
  · rw [if_pos nothing] at rest
    cases rest
    exact ⟨nothing.symm, .nothing nothing⟩
  · rw [if_neg nothing] at rest
    obtain ⟨-, bracket⟩ := statement_ok rest
    obtain ⟨rfl, rfl⟩ := Prod.mk.inj bracket
    rw [recordPrune_deleteOlder]
    exact ⟨rfl, .bracketed nothing⟩

/-- A prune is refused, fails and leaves everything, or takes the old rows of an allowed table
and says so. -/
theorem pruneOlderThan_cases (db : Database) (faults : PruneFaults) (nowUs : Int) (table : String)
    (cutoffUs : Int) :
    (∃ e, db.pruneOlderThan faults nowUs table cutoffUs = (db, .error e)) ∨
      ∃ t ∈ prunableTables, t.name = table ∧
        ∃ after, db.pruneOlderThan faults nowUs table cutoffUs =
            (after, .ok (db.olderRows t cutoffUs)) ∧ Pruned db t cutoffUs nowUs after := by
  cases found : prunableTables.find? fun t => t.name == table with
  | none =>
    left
    exact ⟨.notPrunable table, by rw [pruneOlderThan, found]⟩
  | some t =>
    obtain ⟨allowed, named⟩ := mem_prunable_of_find found
    have call : db.pruneOlderThan faults nowUs table cutoffUs =
        transact faults.begins (pruneStatements faults nowUs t cutoffUs) faults.commits db := by
      rw [pruneOlderThan, found]
    rw [call]
    cases answer : (transact faults.begins (pruneStatements faults nowUs t cutoffUs)
        faults.commits db).2 with
    | error e => exact .inl ⟨e, Prod.ext (transact_error answer) answer⟩
    | ok n =>
      obtain ⟨rfl, pruned⟩ := pruneStatements_ok (transact_ok answer)
      exact .inr ⟨t, allowed, named, _, Prod.ext rfl answer, pruned⟩

/-- No prune touches what the diagnoses read. -/
theorem record_pruneOlderThan (db : Database) (c : PruneCall) :
    (db.pruneOlderThan c.faults c.nowUs c.table c.cutoffUs).1.record = db.record ∧
      (db.pruneOlderThan c.faults c.nowUs c.table c.cutoffUs).1.probingEdge = db.probingEdge := by
  rcases db.pruneOlderThan_cases c.faults c.nowUs c.table c.cutoffUs with
    ⟨e, kept⟩ | ⟨t, allowed, -, after, done, pruned⟩
  · rw [kept]
    exact ⟨rfl, rfl⟩
  · rw [done]
    cases pruned with
    | nothing => exact record_deleteOlder db allowed c.cutoffUs
    | bracketed => exact record_deleteOlder db allowed c.cutoffUs

theorem length_stamps_deleteOlder (db : Database) (t : SampleTable) (cutoffUs : Int) :
    ((db.deleteOlder t cutoffUs).stamps t).length + db.olderRows t cutoffUs =
      (db.stamps t).length := by
  rw [stamps_deleteOlder, if_pos rfl]
  exact length_filter_add_countP (db.stamps t) cutoffUs

theorem bracketedRows_snoc (brackets : List RecordPruneRow) (row : RecordPruneRow)
    (table : SampleTable) :
    bracketedRows (brackets ++ [row]) table =
      bracketedRows brackets table + if row.table = table.name then row.deleted else 0 := by
  unfold bracketedRows
  rw [List.filter_append, List.map_append, List.sum_append]
  by_cases named : row.table = table.name <;> simp [named]

/-- Rows left and rows accounted for stay the same in sum. -/
theorem accounted_pruneOlderThan (db : Database) (c : PruneCall) (table : SampleTable) :
    let after := (db.pruneOlderThan c.faults c.nowUs c.table c.cutoffUs).1
    (after.stamps table).length + after.deletedRows table =
      (db.stamps table).length + db.deletedRows table := by
  rcases db.pruneOlderThan_cases c.faults c.nowUs c.table c.cutoffUs with
    ⟨e, kept⟩ | ⟨t, -, -, after, done, pruned⟩
  · rw [kept]
  · rw [done]
    have taken := length_stamps_deleteOlder db t c.cutoffUs
    have others := stamps_deleteOlder db t table c.cutoffUs
    cases pruned with
    | nothing none_older =>
      have brackets : (db.deleteOlder t c.cutoffUs).deletedRows table = db.deletedRows table := by
        rw [deletedRows, recordPrune_deleteOlder]
        rfl
      dsimp only
      rw [brackets]
      by_cases same : table = t
      · subst same
        omega
      · rw [others, if_neg same]
    | bracketed some_older =>
      have grown := bracketedRows_snoc db.recordPrune
        ⟨c.nowUs, t.name, c.cutoffUs, db.olderRows t c.cutoffUs⟩ table
      have rows : stamps { db.deleteOlder t c.cutoffUs with recordPrune := db.recordPrune ++
          [⟨c.nowUs, t.name, c.cutoffUs, db.olderRows t c.cutoffUs⟩] } table =
            (db.deleteOlder t c.cutoffUs).stamps table := by
        cases table <;> rfl
      dsimp only at grown
      dsimp only [deletedRows]
      rw [rows, grown]
      by_cases same : table = t
      · subst same
        rw [if_pos rfl]
        omega
      · have apart : t.name ≠ table.name := fun named => same (SampleTable.name_injective named).symm
        rw [others, if_neg same, if_neg apart, Nat.add_zero]

/-- What every sequence of prunes leaves as it was. -/
structure SameHistory (renderTime : Int → String) (before after : Database) : Prop where
  observationGaps : after.observationGaps = before.observationGaps
  silences : after.silences = before.silences
  incidentContext : ∀ loadThreshold, after.record.incidentContext loadThreshold =
    before.record.incidentContext loadThreshold
  wedgeVsStarvation : ∀ loadThreshold gapUs,
    after.record.wedgeVsStarvation loadThreshold gapUs =
      before.record.wedgeVsStarvation loadThreshold gapUs
  gwDrops : after.record.gwDrops = before.record.gwDrops
  gatewayRamp : ∀ regrSlope dropTsUs windowUs,
    after.record.gatewayRamp regrSlope dropTsUs windowUs =
      before.record.gatewayRamp regrSlope dropTsUs windowUs
  verdictAt : ∀ loadThreshold tsUs,
    (after.verdictAt renderTime loadThreshold tsUs).map VerdictCells.verdict =
      (before.verdictAt renderTime loadThreshold tsUs).map VerdictCells.verdict

theorem sameHistory_of_record {renderTime : Int → String} {before after : Database}
    (record : after.record = before.record) (edges : after.probingEdge = before.probingEdge) :
    SameHistory renderTime before after := by
  refine ⟨?_, ?_, fun _ => by rw [record], fun _ _ => by rw [record], by rw [record],
    fun _ _ _ => by rw [record], fun loadThreshold tsUs => ?_⟩
  · unfold observationGaps
    rw [record]
  · unfold silences
    rw [record, edges]
  · unfold verdictAt
    simp only [List.map_map, Function.comp_def, List.map_id', record]

theorem runPrunes_cons (db : Database) (c : PruneCall) (calls : List PruneCall) :
    db.runPrunes (c :: calls) =
      (db.pruneOlderThan c.faults c.nowUs c.table c.cutoffUs).1.runPrunes calls := rfl

theorem record_runPrunes (db : Database) (calls : List PruneCall) :
    (db.runPrunes calls).record = db.record ∧ (db.runPrunes calls).probingEdge = db.probingEdge := by
  induction calls generalizing db with
  | nil => exact ⟨rfl, rfl⟩
  | cons c calls ih =>
    obtain ⟨record, edges⟩ := db.record_pruneOlderThan c
    obtain ⟨record', edges'⟩ := ih (db.pruneOlderThan c.faults c.nowUs c.table c.cutoffUs).1
    rw [runPrunes_cons]
    exact ⟨record'.trans record, edges'.trans edges⟩

theorem accounted_runPrunes (db : Database) (calls : List PruneCall) (table : SampleTable) :
    ((db.runPrunes calls).stamps table).length + (db.runPrunes calls).deletedRows table =
      (db.stamps table).length + db.deletedRows table := by
  induction calls generalizing db with
  | nil => rfl
  | cons c calls ih =>
    rw [runPrunes_cons, ih]
    exact db.accounted_pruneOlderThan c table

theorem sublist_pruneOlderThan (db : Database) (c : PruneCall) (table : SampleTable) :
    ((db.pruneOlderThan c.faults c.nowUs c.table c.cutoffUs).1.stamps table).Sublist
      (db.stamps table) := by
  rcases db.pruneOlderThan_cases c.faults c.nowUs c.table c.cutoffUs with
    ⟨e, kept⟩ | ⟨t, -, -, after, done, pruned⟩
  · rw [kept]
  · have fewer : ((db.deleteOlder t c.cutoffUs).stamps table).Sublist (db.stamps table) := by
      rw [stamps_deleteOlder]
      by_cases same : table = t
      · rw [if_pos same, same]
        exact List.filter_sublist
      · rw [if_neg same]
    rw [done]
    cases pruned with
    | nothing => exact fewer
    | bracketed => cases table <;> exact fewer

theorem sublist_runPrunes (db : Database) (calls : List PruneCall) (table : SampleTable) :
    ((db.runPrunes calls).stamps table).Sublist (db.stamps table) := by
  induction calls generalizing db with
  | nil => exact List.Sublist.refl _
  | cons c calls ih =>
    rw [runPrunes_cons]
    exact (ih _).trans (db.sublist_pruneOlderThan c table)

end Database

/-- Over any sequence of prunes the diagnoses of the record stay as they were, and of every table
the rows gone are as many as the brackets count; a name outside the allow-list and a call that
fails change nothing. -/
theorem prunes_keep_history (renderTime : Int → String) (db : Database) (calls : List PruneCall) :
    Database.SameHistory renderTime db (db.runPrunes calls) ∧
      (∀ table, ((db.runPrunes calls).stamps table).Sublist (db.stamps table) ∧
        (db.stamps table).length - ((db.runPrunes calls).stamps table).length =
          (db.runPrunes calls).deletedRows table - db.deletedRows table) ∧
      (∀ faults nowUs cutoffUs name, (∀ t ∈ prunableTables, t.name ≠ name) →
        db.pruneOlderThan faults nowUs name cutoffUs = (db, .error (.notPrunable name))) ∧
      ∀ faults nowUs cutoffUs name e,
        (db.pruneOlderThan faults nowUs name cutoffUs).2 = .error e →
          (db.pruneOlderThan faults nowUs name cutoffUs).1 = db := by
  refine ⟨?_, fun table => ⟨db.sublist_runPrunes calls table, ?_⟩, ?_, ?_⟩
  · obtain ⟨record, edges⟩ := db.record_runPrunes calls
    exact Database.sameHistory_of_record record edges
  · have fewer := (db.sublist_runPrunes calls table).length_le
    have accounted := db.accounted_runPrunes calls table
    omega
  · intro faults nowUs cutoffUs name unlisted
    have refused : prunableTables.find? (fun t => t.name == name) = none := by
      rw [List.find?_eq_none]
      exact fun t listed named => unlisted t listed (beq_iff_eq.mp named)
    rw [Database.pruneOlderThan, refused]
  · intro faults nowUs cutoffUs name e failed
    rcases db.pruneOlderThan_cases faults nowUs name cutoffUs with
      ⟨e', kept⟩ | ⟨t, -, -, after, done, -⟩
    · rw [kept]
    · rw [done] at failed
      cases failed

/-- The two halves of one air scan. -/
def airSlice : List SampleTable := [.airSample, .airAp]

/-- The tables of a plan that names either half of the air slice name both. -/
def wholeSlice (tables : List String) : List String :=
  if airSlice.any fun half => tables.contains half.name then
    tables ++ (airSlice.map SampleTable.name).filter fun half => !tables.contains half
  else tables

/-- `retention_plan`: the first name outside the allow-list refuses the configuration; a window of
zero days and an empty list are no plan. -/
def retentionPlan (retentionDays : Nat) (configured : List String) :
    Except String (Option (Nat × List String)) :=
  match configured.find? fun name => !prunableTables.any fun t => t.name == name with
  | some name => .error name
  | none =>
    if retentionDays = 0 then .ok none
    else if configured.eraseDups = [] then .ok none
    else .ok (some (retentionDays, wholeSlice configured.eraseDups))

theorem mem_wholeSlice {tables : List String} {name : String} :
    name ∈ wholeSlice tables ↔ name ∈ tables ∨
      (∃ half ∈ airSlice, half.name ∈ tables) ∧ ∃ half ∈ airSlice, half.name = name := by
  unfold wholeSlice
  split
  next touched =>
    obtain ⟨half, isHalf, named⟩ := List.any_eq_true.mp touched
    have named : half.name ∈ tables := List.contains_iff_mem.mp named
    simp only [List.mem_append, List.mem_filter, List.mem_map, Bool.not_eq_eq_eq_not, Bool.not_true,
      List.contains_eq_mem, decide_eq_false_iff_not]
    constructor
    · rintro (listed | ⟨added, -⟩)
      · exact .inl listed
      · exact .inr ⟨⟨half, isHalf, named⟩, added⟩
    · rintro (listed | ⟨-, added⟩)
      · exact .inl listed
      · by_cases listed : name ∈ tables
        · exact .inl listed
        · exact .inr ⟨added, listed⟩
  next untouched =>
    constructor
    · exact .inl
    · rintro (listed | ⟨⟨half, isHalf, named⟩, -⟩)
      · exact listed
      · refine absurd ?_ untouched
        exact List.any_eq_true.mpr ⟨half, isHalf, List.contains_iff_mem.mpr named⟩

/-- A plan names tables the store accepts, and an air scan's halves together or not at all. -/
theorem retentionPlan_tables {retentionDays days : Nat} {configured tables : List String}
    (planned : retentionPlan retentionDays configured = .ok (some (days, tables))) :
    days ≠ 0 ∧ (∀ name ∈ tables, ∃ t ∈ prunableTables, t.name = name) ∧
      (SampleTable.airSample.name ∈ tables ↔ SampleTable.airAp.name ∈ tables) := by
  unfold retentionPlan at planned
  split at planned
  next => cases planned
  next accepted =>
    split_ifs at planned with noWindow noTables
    · cases planned
    · cases planned
    obtain ⟨rfl, rfl⟩ := Prod.mk.inj (Option.some.inj (Except.ok.inj planned))
    refine ⟨noWindow, fun name listed => ?_, ?_⟩
    · rcases mem_wholeSlice.mp listed with configured | ⟨-, half, isHalf, named⟩
      · have known := List.find?_eq_none.mp accepted name (List.mem_eraseDups.mp configured)
        have known : (prunableTables.any fun t => t.name == name) = true := by
          simpa only [Bool.not_eq_true', Bool.not_eq_false] using known
        obtain ⟨t, allowed, same⟩ := List.any_eq_true.mp known
        exact ⟨t, allowed, beq_iff_eq.mp same⟩
      · refine ⟨half, ?_, named⟩
        have halves : airSlice ⊆ prunableTables := by decide
        exact halves isHalf
    · have both : ∀ {a b : SampleTable}, a ∈ airSlice → b ∈ airSlice →
          a.name ∈ wholeSlice configured.eraseDups → b.name ∈ wholeSlice configured.eraseDups := by
        intro a b isHalf isHalf' listed
        refine mem_wholeSlice.mpr (.inr ⟨?_, b, isHalf', rfl⟩)
        rcases mem_wholeSlice.mp listed with configured | ⟨touched, -⟩
        · exact ⟨a, isHalf, configured⟩
        · exact touched
      exact ⟨both (by decide) (by decide), both (by decide) (by decide)⟩

end NetObserver
