import NetObserver.OperatorScans
import NetObserver.QueryReplies
import NetObserver.RecordRoutes
import NetObserver.SampleWrites

/-! An answer of several round trips from a record that is written and pruned between them: the
rows are those of the scan whose header was read first. -/

namespace NetObserver

open Machine Relational Transaction

/-- The tables an air scan or an egress scan is read from, among those of the samples. -/
structure ScanRecord where
  samples : SampleStore
  egressScan : List EgressScanHeader
  egressDst : List EgressDst

/-- What the daemon does to its record, each under the lock of the connection. -/
inductive RecordOp where
  | sample (faults : Nat → Option StoreError) (s : Sample)
  | egress (begins commits : Option StoreError) (faults : Nat → Option StoreError) (iface : String)
      (durationMs : Nat) (tsUs : Int) (outcome : EgressCaptureOutcome)
  | prune (call : PruneCall)

namespace ScanRecord

def insertEgressScan (h : EgressScanHeader) (r : ScanRecord) : ScanRecord :=
  { r with egressScan := r.egressScan ++ [h] }

def insertEgressDst (d : EgressDst) (r : ScanRecord) : ScanRecord :=
  { r with egressDst := r.egressDst ++ [d] }

/-- `write_egress_scan`: the header and its destinations in one transaction. -/
def writeEgressScan (begins commits : Option StoreError) (faults : Nat → Option StoreError)
    (header : EgressScanHeader) (rows : List EgressDst) (r : ScanRecord) :
    ScanRecord × Except StoreError PUnit :=
  let acts := insertEgressScan header :: rows.map insertEgressDst
  transact begins (statements faults 0 acts) commits r

def step (r : ScanRecord) : RecordOp → ScanRecord
  | .sample faults s => { r with samples := (writeSample faults s r.samples).1 }
  | .egress begins commits faults iface durationMs tsUs outcome =>
    let scan := NetObserver.egressScan iface durationMs tsUs outcome
    (r.writeEgressScan begins commits faults scan.1 scan.2).1
  | .prune c =>
    { r with samples.db := (r.samples.db.pruneOlderThan c.faults c.nowUs c.table c.cutoffUs).1 }

def run (r : ScanRecord) (ops : List RecordOp) : ScanRecord := ops.foldl step r

end ScanRecord

def AirVerdict.text : AirVerdict → String
  | .ok => "OK"
  | .skip => "SKIP"

/-- `NULL` is an empty cell. -/
def intCell (value : Option Int) : String := (value.map toString).getD ""

def AirSampleRow.cells (a : AirSampleRow) : List String :=
  [toString a.tsUs, a.air.text, a.reason.getD "", toString a.apCount]

def AirObservation.cells (ap : AirObservation) : List String :=
  [intCell ap.channel, ap.channelBand.getD "", intCell ap.channelWidthMhz, ap.phyMode.getD "",
    ap.security.getD "", intCell ap.rssiDbm, intCell ap.noiseDbm]

def EgressScanHeader.cells (h : EgressScanHeader) : List String :=
  [toString h.tsUs, h.iface, h.verdict, h.reason.getD "", toString h.durationMs,
    toString h.packetCount, toString h.dstCount, toString h.byteCount]

def EgressDst.cells (d : EgressDst) : List String :=
  [d.dstIp, toString d.packets, toString d.bytes]

/-- An order with the unknown last. -/
def knownFirst (before : Int → Int → Bool) : Option Int → Option Int → Bool
  | some x, some y => before x y
  | some _, none => true
  | none, some _ => false
  | none, none => true

def louder (a b : AirObservation) : Bool :=
  if a.rssiDbm = b.rssiDbm then knownFirst (fun x y => x ≤ y) a.channel b.channel
  else knownFirst (fun x y => y < x) a.rssiDbm b.rssiDbm

def heavier (a b : EgressDst) : Bool :=
  if a.bytes = b.bytes then a.dstIp ≤ b.dstIp else b.bytes < a.bytes

def airScanTable (row : Option AirSampleRow) : QueryTable :=
  ⟨["ts_us", "air", "reason", "ap_count"], (row.map AirSampleRow.cells).toList⟩

def airApsTable (aps : List AirObservation) : QueryTable :=
  ⟨["channel", "channel_band", "channel_width_mhz", "phy_mode", "security", "rssi_dbm",
    "noise_dbm"], (aps.mergeSort louder).map AirObservation.cells⟩

def airSelfTable (row : Option WifiSample) : QueryTable :=
  ⟨["ts_us", "channel", "channel_band", "channel_width_mhz"],
    (row.map fun w => [toString w.tsUs, intCell w.channel, w.channelBand.getD "",
      intCell w.channelWidthMhz]).toList⟩

def egressScanTable (row : Option EgressScanHeader) : QueryTable :=
  ⟨["ts_us", "iface", "verdict", "reason", "duration_ms", "packet_count", "dst_count",
    "byte_count"], (row.map EgressScanHeader.cells).toList⟩

def egressDstsTable (dsts : List EgressDst) : QueryTable :=
  ⟨["dst_ip", "packets", "bytes"], (dsts.mergeSort heavier).map EgressDst.cells⟩

namespace ScanRecord

def airLatestScan (r : ScanRecord) : Option AirSampleRow :=
  newestOf AirSampleRow.tsUs r.samples.db.airSample

def airApsAt (r : ScanRecord) (tsUs : Int) : List AirObservation :=
  (r.samples.db.airAp.filter fun row => row.tsUs = tsUs).map AirApRow.ap

def airSelfChannel (r : ScanRecord) : Option WifiSample :=
  newestOf WifiSample.tsUs (r.samples.db.wifiSample.filter fun w =>
    w.wifi = .ok && w.channel.isSome && w.channelBand.isSome)

def egressLatestScan (r : ScanRecord) : Option EgressScanHeader :=
  newestOf EgressScanHeader.tsUs r.egressScan

def egressDstsAt (r : ScanRecord) (tsUs : Int) : List EgressDst :=
  r.egressDst.filter fun d => d.tsUs = tsUs

/-- What the record answers the five statements with. -/
def answer (r : ScanRecord) : PreparedSql → Option QueryTable
  | .airLatestScan => some (airScanTable r.airLatestScan)
  | .airApsAt tsUs => some (airApsTable (r.airApsAt tsUs))
  | .airSelfChannel => some (airSelfTable r.airSelfChannel)
  | .egressLatestScan => some (egressScanTable r.egressLatestScan)
  | .egressDstsAt tsUs => some (egressDstsTable (r.egressDstsAt tsUs))
  | _ => none

end ScanRecord

/-- How a round trip ends: not at all, at a daemon too old to read it, or at a daemon. -/
inductive TripEnd where
  | failed (e : SocketFailure)
  | undecodable (m : String)
  | reached (srv : QueryServer)

/-- `net_observer_ipc::diagnose`, the round trips one after another. -/
def diagnose (trips : Nat → TripEnd) : Asks := fun k _ q =>
  match trips k with
  | .failed e => .error e
  | .undecodable m => .ok (.unsupported m)
  | .reached srv =>
    match classifyQuery (srv.handleQuery q) with
    | .ok outcome => .ok outcome
    | .error text => .error (.other text)

/-- The database answers the five statements from the record it holds, or fails. -/
def Serves (srv : QueryServer) (r : ScanRecord) : Prop :=
  ∀ statement table t, r.answer statement = some table →
    srv.store.queryPreparedWithin statement queryDeadlineNs = .ok t → t = table

/-- A table that came over the socket is what the record held then. -/
theorem diagnose_table {trips : Nat → TripEnd} {k : Nat} {r : ScanRecord} {via : String}
    {q : DiagnosticQuery} {statement : PreparedSql} {t table : QueryTable}
    (serves : ∀ srv, trips k = .reached srv → Serves srv r)
    (read : diagnose trips k via q = .ok (.table t))
    (built : q.statement defaultStarvationLoad = some (.ok statement))
    (holds : r.answer statement = some table) : t = table := by
  unfold diagnose at read
  split at read
  next => cases read
  next => cases read
  next srv reached =>
    split at read
    next outcome classified =>
      cases read
      cases QueryServer.classify_table_iff.mp classified with
      | remembered held => cases built
      | recorded absent free stored decoded => cases built
      | looked held ready => cases built
      | read free built' ran =>
        rw [built] at built'
        cases built'
        exact serves srv reached _ table t holds ran
    next => cases read

theorem scanTsUs_of_first {columns : List String} {tsUs : Int} {cells : List String}
    {rest : List (List String)} (low : i64Min ≤ tsUs) (high : tsUs ≤ i64Max) :
    scanTsUs ⟨"ts_us" :: columns, (toString tsUs :: cells) :: rest⟩ = some tsUs := by
  have first : List.idxOf? "ts_us" ("ts_us" :: columns) = some 0 := by simp [List.idxOf?_cons]
  rw [scanTsUs, first]
  exact parseI64_toString low high

theorem scanTsUs_of_none (columns : List String) : scanTsUs ⟨columns, []⟩ = none := by
  unfold scanTsUs
  cases columns.idxOf? "ts_us" <;> rfl

/-! An access point stays with its scan. -/

/-- An operation that neither writes an air scan of that instant nor prunes past it. -/
def RecordOp.Spares (tsUs : Int) : RecordOp → Prop
  | .sample _ (.air a) => a.tsUs ≠ tsUs
  | .sample _ _ | .egress _ _ _ _ _ _ _ => True
  | .prune c => c.table = SampleTable.airAp.name → c.cutoffUs ≤ tsUs

def SampleStore.apsAt (t : SampleStore) (tsUs : Int) : List AirApRow :=
  t.db.airAp.filter fun row => row.tsUs = tsUs

theorem apsAt_statement {s : Sample} {tsUs : Int} (apart : ∀ a, s = .air a → a.tsUs ≠ tsUs)
    {act : SampleStore → SampleStore} (mem : act ∈ s.statements) (t : SampleStore) :
    (act t).apsAt tsUs = t.apsAt tsUs := by
  have unmoved (same : (act t).db.airAp = t.db.airAp) : (act t).apsAt tsUs = t.apsAt tsUs := by
    rw [SampleStore.apsAt, same]
    rfl
  cases s with
  | air a =>
    rcases List.mem_cons.mp mem with rfl | more
    · exact unmoved rfl
    · obtain ⟨ap, _, rfl⟩ := List.mem_map.mp more
      show (t.db.airAp ++ [(⟨a.tsUs, ap⟩ : AirApRow)]).filter _ = _
      have other : decide (a.tsUs = tsUs) = false := decide_eq_false (apart a rfl)
      rw [List.filter_append, List.filter_cons, List.filter_nil, other]
      exact List.append_nil _
  | neighbors n =>
    rcases List.mem_cons.mp mem with rfl | more
    · exact unmoved rfl
    · rcases List.mem_append.mp more with first | second
      · exact unmoved (congrArg Database.airAp (NeighborsSample.neighborStatements_keep first t).1)
      · exact unmoved (congrArg Database.airAp (NeighborsSample.serviceStatements_keep second t).1)
  | connections cs =>
    obtain ⟨r, _, rfl⟩ := List.mem_map.mp mem
    exact unmoved rfl
  | _ =>
    cases List.mem_singleton.mp mem
    exact unmoved rfl

theorem apsAt_writeSample {s : Sample} {tsUs : Int} (apart : ∀ a, s = .air a → a.tsUs ≠ tsUs)
    (faults : Nat → Option StoreError) (t : SampleStore) :
    (writeSample faults s t).1.apsAt tsUs = t.apsAt tsUs := by
  have each : ∀ act ∈ s.statements, ∀ t : SampleStore, (act t).apsAt tsUs = t.apsAt tsUs :=
    fun act mem t => apsAt_statement apart mem t
  cases s with
  | connections cs =>
    cases ended : (writeSample faults (.connections cs) t).2 with
    | error e =>
      have unchanged : (writeSample faults (.connections cs) t).1 = t := transact_error ended
      rw [unchanged]
    | ok _ =>
      rw [writeSample_ok ended]
      exact applied_keeps (fun t : SampleStore => t.apsAt tsUs) each
  | _ => exact runEach_keeps (fun t : SampleStore => t.apsAt tsUs) each

theorem airAp_deleteOlder (db : Database) (table : SampleTable) (cutoffUs : Int) :
    (db.deleteOlder table cutoffUs).airAp =
      if table = .airAp then Database.keepSince AirApRow.tsUs cutoffUs db.airAp else db.airAp := by
  cases table <;> rfl

theorem filter_keepSince {rows : List AirApRow} {cutoffUs tsUs : Int} (before : cutoffUs ≤ tsUs) :
    (Database.keepSince AirApRow.tsUs cutoffUs rows).filter (fun row => row.tsUs = tsUs) =
      rows.filter fun row => row.tsUs = tsUs := by
  unfold Database.keepSince
  rw [List.filter_filter]
  apply List.filter_congr
  intro row _
  by_cases same : row.tsUs = tsUs
  · simp [same, before]
  · simp [same]

namespace ScanRecord

/-- A write of an egress scan leaves all of it or none. -/
theorem step_egress (r : ScanRecord) (begins commits : Option StoreError)
    (faults : Nat → Option StoreError) (iface : String) (durationMs : Nat) (tsUs : Int)
    (outcome : EgressCaptureOutcome) :
    let r' := r.step (.egress begins commits faults iface durationMs tsUs outcome)
    let scan := NetObserver.egressScan iface durationMs tsUs outcome
    r' = r ∨ (r'.samples = r.samples ∧ r'.egressScan = r.egressScan ++ [scan.1] ∧
      r'.egressDst = r.egressDst ++ scan.2) := by
  intro r' scan
  have is : r' = (r.writeEgressScan begins commits faults scan.1 scan.2).1 := rfl
  cases ended : (r.writeEgressScan begins commits faults scan.1 scan.2).2 with
  | error e => exact .inl (is.trans (transact_error ended))
  | ok _ =>
    have whole := statements_ok (transact_ok ended)
    have keeps : ∀ act ∈ scan.2.map insertEgressDst, ∀ r : ScanRecord,
        (act r).samples = r.samples ∧ (act r).egressScan = r.egressScan := fun act mem r => by
      obtain ⟨d, _, rfl⟩ := List.mem_map.mp mem
      exact ⟨rfl, rfl⟩
    have after : r' = applied (scan.2.map insertEgressDst) (insertEgressScan scan.1 r) :=
      is.trans whole
    refine .inr ⟨?_, ?_, ?_⟩
    · rw [after, applied_keeps ScanRecord.samples fun act mem r => (keeps act mem r).1]
      rfl
    · rw [after, applied_keeps ScanRecord.egressScan fun act mem r => (keeps act mem r).2]
      rfl
    · rw [after, applied_appends ScanRecord.egressDst id fun a r => rfl, List.map_id]
      rfl

theorem apsAt_step {r : ScanRecord} {op : RecordOp} {tsUs : Int} (spares : op.Spares tsUs) :
    (r.step op).samples.apsAt tsUs = r.samples.apsAt tsUs := by
  cases op with
  | sample faults s =>
    refine apsAt_writeSample (fun a is => ?_) faults r.samples
    subst is
    exact spares
  | egress begins commits faults iface durationMs tsUs' outcome =>
    rcases step_egress r begins commits faults iface durationMs tsUs' outcome with same | ⟨same, _⟩
    · rw [same]
    · rw [same]
  | prune c =>
    show (r.samples.db.pruneOlderThan c.faults c.nowUs c.table c.cutoffUs).1.airAp.filter _ = _
    rcases r.samples.db.pruneOlderThan_cases c.faults c.nowUs c.table c.cutoffUs with
      ⟨e, kept⟩ | ⟨table, _, named, after, done, pruned⟩
    · rw [kept]
      rfl
    · have cut : (r.samples.db.deleteOlder table c.cutoffUs).airAp.filter
          (fun row => row.tsUs = tsUs) = r.samples.apsAt tsUs := by
        rw [airAp_deleteOlder]
        split
        next is => exact filter_keepSince (spares (is ▸ named.symm))
        next => rfl
      rw [done]
      cases pruned with
      | nothing => exact cut
      | bracketed => exact cut

theorem apsAt_run {r : ScanRecord} {ops : List RecordOp} {tsUs : Int}
    (spare : ∀ op ∈ ops, op.Spares tsUs) :
    (r.run ops).samples.apsAt tsUs = r.samples.apsAt tsUs := by
  induction ops generalizing r with
  | nil => rfl
  | cons op ops ih =>
    rw [run, List.foldl_cons]
    exact (ih fun later mem => spare later (List.mem_cons_of_mem op mem)).trans
      (apsAt_step (spare op List.mem_cons_self))

/-- The record holds exactly these egress scans, each with all the destinations it was written
with by one of the operations. -/
structure Holds (r : ScanRecord) (ops : List RecordOp)
    (scans : List (EgressScanHeader × List EgressDst)) : Prop where
  headers : r.egressScan = scans.map Prod.fst
  dsts : r.egressDst = scans.flatMap Prod.snd
  whole : ∀ scan ∈ scans, ∃ begins commits faults iface durationMs tsUs outcome,
    .egress begins commits faults iface durationMs tsUs outcome ∈ ops ∧
      scan = NetObserver.egressScan iface durationMs tsUs outcome

theorem Holds.frame {r r' : ScanRecord} {ops : List RecordOp}
    {scans : List (EgressScanHeader × List EgressDst)} (holds : r.Holds ops scans)
    (headers : r'.egressScan = r.egressScan) (dsts : r'.egressDst = r.egressDst) (op : RecordOp) :
    r'.Holds (ops ++ [op]) scans where
  headers := headers.trans holds.headers
  dsts := dsts.trans holds.dsts
  whole := fun scan mem => by
    obtain ⟨begins, commits, faults, iface, durationMs, tsUs, outcome, among, is⟩ :=
      holds.whole scan mem
    exact ⟨begins, commits, faults, iface, durationMs, tsUs, outcome, List.mem_append_left _ among,
      is⟩

theorem Holds.step {r : ScanRecord} {ops : List RecordOp}
    {scans : List (EgressScanHeader × List EgressDst)} (holds : r.Holds ops scans)
    (op : RecordOp) : ∃ more, (r.step op).Holds (ops ++ [op]) (scans ++ more) := by
  cases op with
  | sample faults s =>
    have kept : (r.step (.sample faults s)).egressDst = r.egressDst := rfl
    exact ⟨[], by rw [List.append_nil]; exact holds.frame (by rfl) kept _⟩
  | prune c =>
    have kept : (r.step (.prune c)).egressDst = r.egressDst := rfl
    exact ⟨[], by rw [List.append_nil]; exact holds.frame (by rfl) kept _⟩
  | egress begins commits faults iface durationMs tsUs outcome =>
    rcases r.step_egress begins commits faults iface durationMs tsUs outcome with
      same | ⟨_, headers, dsts⟩
    · exact ⟨[], by rw [same, List.append_nil]; exact holds.frame rfl rfl _⟩
    · refine ⟨[NetObserver.egressScan iface durationMs tsUs outcome], ?_, ?_, ?_⟩
      · rw [headers, holds.headers, List.map_append, List.map_singleton]
      · rw [dsts, holds.dsts, List.flatMap_append, List.flatMap_singleton]
      · intro scan mem
        rcases List.mem_append.mp mem with old | new
        · exact (holds.frame rfl rfl _).whole scan old
        · exact ⟨begins, commits, faults, iface, durationMs, tsUs, outcome,
            List.mem_append_right _ (List.mem_singleton.mpr rfl), List.mem_singleton.mp new⟩

theorem Holds.run {r : ScanRecord} {past : List RecordOp}
    {scans : List (EgressScanHeader × List EgressDst)} (holds : r.Holds past scans)
    (ops : List RecordOp) : ∃ more, (r.run ops).Holds (past ++ ops) (scans ++ more) := by
  induction ops generalizing r past scans with
  | nil => exact ⟨[], by rw [List.append_nil, List.append_nil]; exact holds⟩
  | cons op ops ih =>
    obtain ⟨first, stepped⟩ := holds.step op
    obtain ⟨more, ran⟩ := ih stepped
    rw [List.append_assoc, List.append_assoc] at ran
    exact ⟨first ++ more, ran⟩

end ScanRecord

/-- Every destination carries the instant of its scan, and a scan that could not capture has
none. -/
theorem egressScan_rows (iface : String) (durationMs : Nat) (tsUs : Int)
    (outcome : EgressCaptureOutcome) :
    let scan := egressScan iface durationMs tsUs outcome
    (∀ d ∈ scan.2, d.tsUs = scan.1.tsUs) ∧ (scan.1.verdict = "SKIP" → scan.2 = []) := by
  cases outcome with
  | couldNotStart reason => exact ⟨fun d mem => (by cases mem), fun _ => rfl⟩
  | ran packetCount dstCount byteCount heaviest =>
    refine ⟨fun d mem => ?_, fun skip => ?_⟩
    · obtain ⟨_, _, rfl⟩ := List.mem_map.mp mem
      rfl
    · exact absurd skip (show "OK" ≠ "SKIP" by decide)

/-- Of one scan alone at its instant, the destinations of that instant are its own. -/
theorem dsts_of_scan {scans : List (EgressScanHeader × List EgressDst)}
    {scan : EgressScanHeader × List EgressDst}
    (stamped : ∀ s ∈ scans, ∀ d ∈ s.2, d.tsUs = s.1.tsUs)
    (alone : scans.filter (fun s => s.1.tsUs = scan.1.tsUs) = [scan]) :
    (scans.flatMap Prod.snd).filter (fun d => d.tsUs = scan.1.tsUs) = scan.2 := by
  have own : (scans.flatMap Prod.snd).filter (fun d => d.tsUs = scan.1.tsUs) =
      (scans.filter fun s => s.1.tsUs = scan.1.tsUs).flatMap Prod.snd := by
    clear alone
    induction scans with
    | nil => rfl
    | cons s scans ih =>
      have rest := ih fun s' mem => stamped s' (List.mem_cons_of_mem s mem)
      have here := stamped s List.mem_cons_self
      rw [List.flatMap_cons, List.filter_append, rest, List.filter_cons]
      by_cases same : s.1.tsUs = scan.1.tsUs
      · rw [if_pos (decide_eq_true same), List.flatMap_cons,
          List.filter_eq_self.mpr fun d mem => decide_eq_true ((here d mem).trans same)]
      · rw [if_neg (by simpa using same), List.filter_eq_nil_iff.mpr fun d mem => by
          simpa using fun is => same ((here d mem).symm.trans is), List.nil_append]
  rw [own, alone, List.flatMap_singleton]

theorem egressSkipNote_iff (h : EgressScanHeader) :
    (egressSkipNote (egressScanTable (some h))).isSome = true ↔ h.verdict = "SKIP" := by
  have note : egressSkipNote (egressScanTable (some h)) =
      if some h.verdict ≠ some "SKIP" then none
      else some ("the latest egress scan could not capture (" ++
        ((some (h.reason.getD "")).filter (!·.isEmpty)).getD "the capture could not run" ++
          "); no destinations recorded — this is not \"nothing left the interface\"") := rfl
  rw [note]
  by_cases skip : h.verdict = "SKIP"
  · simp [skip]
  · simp [skip]

/-- A live `air` answer is one moment's: the header of the newest scan, and the access points of
that scan as the record held them then, whatever is written and pruned until they are asked for,
short of its own instant. -/
theorem air_read_pinned {socket : Option String} {trips : Nat → TripEnd}
    {records : Nat → ScanRecord} {between : List RecordOp} {scan aps own : QueryTable}
    {via : String} (serves : ∀ k srv, trips k = .reached srv → Serves srv (records k))
    (moved : records 1 = (records 0).run between)
    (range : ∀ row ∈ (records 0).samples.db.airSample, i64Min ≤ row.tsUs ∧ row.tsUs ≤ i64Max)
    (live : routeAir socket (diagnose trips) = .ok (.live scan aps own via)) :
    scan = airScanTable (records 0).airLatestScan ∧
      (((records 0).airLatestScan = none ∧ aps = .empty ∧
          own = airSelfTable (records 1).airSelfChannel) ∨
        ∃ row, (records 0).airLatestScan = some row ∧
          aps = airApsTable ((records 1).airApsAt row.tsUs) ∧
          own = airSelfTable (records 2).airSelfChannel ∧
          ((∀ op ∈ between, op.Spares row.tsUs) →
            aps = airApsTable ((records 0).airApsAt row.tsUs))) := by
  obtain ⟨_, header, rest⟩ := routeAir_live live
  have first : scan = airScanTable (records 0).airLatestScan :=
    diagnose_table (serves 0) header rfl rfl
  refine ⟨first, ?_⟩
  cases newest : (records 0).airLatestScan with
  | none =>
    have unstamped : scanTsUs scan = none := by
      rw [first, newest]
      exact scanTsUs_of_none _
    rcases rest with ⟨_, empty, asked⟩ | ⟨ts, there, _⟩
    · exact .inl ⟨rfl, empty, diagnose_table (serves 1) asked rfl rfl⟩
    · rw [unstamped] at there
      cases there
  | some row =>
    obtain ⟨low, high⟩ := range row (newestOf_mem newest)
    have stamped : scanTsUs scan = some row.tsUs := by
      rw [first, newest]
      exact scanTsUs_of_first low high
    rcases rest with ⟨none, _⟩ | ⟨ts, there, read, asked⟩
    · rw [stamped] at none
      cases none
    · rw [stamped] at there
      cases there
      have second : aps = airApsTable ((records 1).airApsAt row.tsUs) :=
        diagnose_table (serves 1) read rfl rfl
      refine .inr ⟨row, rfl, second, diagnose_table (serves 2) asked rfl rfl, fun spare => ?_⟩
      have same : (records 1).airApsAt row.tsUs = (records 0).airApsAt row.tsUs :=
        congrArg (List.map AirApRow.ap) (moved ▸ ScanRecord.apsAt_run spare)
      rw [second, same]

/-- A live `egress` answer is one scan's, whole: its header and every destination that was written
with it, however the writes of the record failed and whatever is written or pruned until they are
asked for, unless another scan bears its instant; and a note stands for a scan that could not
capture, and for no other. -/
theorem egress_read_whole {socket : Option String} {trips : Nat → TripEnd}
    {records : Nat → ScanRecord} {samples : SampleStore} {past between : List RecordOp}
    {scan dsts : QueryTable} {via : String}
    (serves : ∀ k srv, trips k = .reached srv → Serves srv (records k))
    (written : records 0 = ScanRecord.run ⟨samples, [], []⟩ past)
    (moved : records 1 = (records 0).run between)
    (range : ∀ h ∈ (records 0).egressScan, i64Min ≤ h.tsUs ∧ h.tsUs ≤ i64Max)
    (live : routeEgress socket (diagnose trips) = .ok (.live scan dsts via)) :
    ((records 0).egressScan = [] ∧ scan.rows = [] ∧ dsts = .empty) ∨
      ∃ begins commits faults iface durationMs tsUs outcome,
        .egress begins commits faults iface durationMs tsUs outcome ∈ past ∧
        let stored := egressScan iface durationMs tsUs outcome
        (records 0).egressLatestScan = some stored.1 ∧
        scan = egressScanTable (some stored.1) ∧
        ((records 1).egressScan.filter (fun h => h.tsUs = stored.1.tsUs) = [stored.1] →
          dsts = egressDstsTable stored.2) ∧
        ((egressSkipNote scan).isSome = true ↔ stored.1.verdict = "SKIP") ∧
        (stored.1.verdict = "SKIP" → stored.2 = []) := by
  obtain ⟨_, header, rest⟩ := routeEgress_live live
  have first : scan = egressScanTable (records 0).egressLatestScan :=
    diagnose_table (serves 0) header rfl rfl
  have start : ScanRecord.Holds ⟨samples, [], []⟩ [] [] := ⟨rfl, rfl, fun _ mem => by cases mem⟩
  obtain ⟨scans, held⟩ := start.run past
  rw [← written, List.nil_append, List.nil_append] at held
  obtain ⟨more, held'⟩ := held.run between
  rw [← moved] at held'
  cases newest : (records 0).egressLatestScan with
  | none =>
    have unstamped : scanTsUs scan = none := by
      rw [first, newest]
      exact scanTsUs_of_none _
    rcases rest with ⟨_, empty⟩ | ⟨ts, there, _⟩
    · exact .inl ⟨newestOf_none.mp newest, by rw [first, newest]; rfl, empty⟩
    · rw [unstamped] at there
      cases there
  | some h =>
    have listed : h ∈ (records 0).egressScan := newestOf_mem newest
    obtain ⟨low, high⟩ := range h listed
    have stamped : scanTsUs scan = some h.tsUs := by
      rw [first, newest]
      exact scanTsUs_of_first low high
    rw [held.headers] at listed
    obtain ⟨stored, mem, rfl⟩ := List.mem_map.mp listed
    obtain ⟨begins, commits, faults, iface, durationMs, tsUs, outcome, among, is⟩ :=
      held.whole stored mem
    have rows := egressScan_rows iface durationMs tsUs outcome
    refine .inr ⟨begins, commits, faults, iface, durationMs, tsUs, outcome, among, ?_⟩
    rw [← is] at rows ⊢
    refine ⟨rfl, first.trans (by rw [newest]), fun alone => ?_, ?_, rows.2⟩
    · rcases rest with ⟨none, _⟩ | ⟨ts, there, read⟩
      · rw [stamped] at none
        cases none
      · rw [stamped] at there
        cases there
        have second : dsts = egressDstsTable ((records 1).egressDstsAt stored.1.tsUs) :=
          diagnose_table (serves 1) read rfl rfl
        rw [second, ScanRecord.egressDstsAt, held'.dsts, dsts_of_scan]
        · intro s among' d
          obtain ⟨_, _, _, _, _, _, _, _, rfl⟩ := held'.whole s among'
          exact (egressScan_rows _ _ _ _).1 d
        · rw [held'.headers, List.filter_map, List.map_eq_singleton_iff] at alone
          obtain ⟨only, one, _⟩ := alone
          have among' : stored ∈ (scans ++ more).filter fun s => s.1.tsUs = stored.1.tsUs :=
            List.mem_filter.mpr ⟨List.mem_append_left _ mem, decide_eq_true rfl⟩
          have same : (scans ++ more).filter (fun s => s.1.tsUs = stored.1.tsUs) = [only] := one
          rw [same, List.mem_singleton] at among'
          rw [same, among']
    · rw [first, newest]
      exact egressSkipNote_iff stored.1

/-- A daemon whose database holds that record. -/
def recordServer (r : ScanRecord) : QueryServer :=
  { idleServer with
    store := ⟨fun _ => .ok none, fun statement _ =>
      match r.answer statement with
      | some table => .ok table
      | none => .error (.other "no such statement")⟩ }

theorem recordServer_serves (r : ScanRecord) : Serves (recordServer r) r := by
  intro statement table t holds read
  have answered : (recordServer r).store.queryPreparedWithin statement queryDeadlineNs =
      .ok table := by
    simp only [recordServer, holds]
  rw [answered] at read
  exact (Except.ok.inj read).symm

def blankRecord : ScanRecord :=
  ⟨⟨⟨⟨[], [], [], [], [], [], []⟩, [], [], [], [], [], [], [], [], []⟩, [], []⟩, [], []⟩

/-- An air scan that hears one access point, on the channel given. -/
def airScanAt (tsUs channel : Int) : RecordOp :=
  .sample (fun _ => none) (.air ⟨tsUs, .ok, none,
    [⟨some channel, some "5ghz", some 80, none, none, some (-60), none⟩]⟩)

/-- The second scan of the air lands while the first is read. -/
def airRecords (k : Nat) : ScanRecord :=
  (blankRecord.run [airScanAt 20000000 44]).run (if k = 0 then [] else [airScanAt 35000000 149])

def airTrips (k : Nat) : TripEnd := .reached (recordServer (airRecords k))

theorem airTrips_serve (k : Nat) (srv : QueryServer) (reached : airTrips k = .reached srv) :
    Serves srv (airRecords k) := by
  cases reached
  exact recordServer_serves _

theorem air_read_pinned_secondScan : ∃ scan aps own,
    routeAir (some "s") (diagnose airTrips) = .ok (.live scan aps own "s") ∧
      aps = airApsTable ((airRecords 0).airApsAt 20000000) := by
  have live : routeAir (some "s") (diagnose airTrips) =
      .ok (.live (airScanTable (airRecords 0).airLatestScan)
        (airApsTable ((airRecords 1).airApsAt 20000000))
        (airSelfTable (airRecords 2).airSelfChannel) "s") := rfl
  have moved : airRecords 1 = (airRecords 0).run [airScanAt 35000000 149] := rfl
  have range : ∀ row ∈ (airRecords 0).samples.db.airSample,
      i64Min ≤ row.tsUs ∧ row.tsUs ≤ i64Max := fun row mem => by
    cases List.mem_singleton.mp mem
    decide
  have pinned := air_read_pinned airTrips_serve moved range live
  obtain ⟨_, none | ⟨row, newest, _, _, pinned⟩⟩ := pinned
  · cases none.1
  · cases newest
    refine ⟨_, _, _, live, pinned fun op mem => ?_⟩
    cases List.mem_singleton.mp mem
    show (35000000 : Int) ≠ 20000000
    decide

/-- An egress scan to one host, its write through. -/
def egressAt (tsUs : Int) : RecordOp :=
  .egress none none (fun _ => none) "en0" 5000 tsUs (.ran 3 1 180 [("203.0.113.7", 3, 180)])

def egressRecords (k : Nat) : ScanRecord :=
  (blankRecord.run [egressAt 20000000]).run (if k = 0 then [] else [egressAt 60000000])

def egressTrips (k : Nat) : TripEnd := .reached (recordServer (egressRecords k))

theorem egressTrips_serve (k : Nat) (srv : QueryServer) (reached : egressTrips k = .reached srv) :
    Serves srv (egressRecords k) := by
  cases reached
  exact recordServer_serves _

theorem egress_read_whole_secondScan : ∃ scan dsts,
    routeEgress (some "s") (diagnose egressTrips) = .ok (.live scan dsts "s") ∧
      ((egressSkipNote scan).isSome = true ↔ "OK" = "SKIP") := by
  have live : routeEgress (some "s") (diagnose egressTrips) =
      .ok (.live (egressScanTable (egressRecords 0).egressLatestScan)
        (egressDstsTable ((egressRecords 1).egressDstsAt 20000000)) "s") := rfl
  have written : egressRecords 0 =
      ScanRecord.run ⟨blankRecord.samples, [], []⟩ [egressAt 20000000] := rfl
  have moved : egressRecords 1 = (egressRecords 0).run [egressAt 60000000] := rfl
  have range : ∀ h ∈ (egressRecords 0).egressScan, i64Min ≤ h.tsUs ∧ h.tsUs ≤ i64Max :=
    fun h mem => by
      cases List.mem_singleton.mp mem
      decide
  have whole := egress_read_whole egressTrips_serve written moved range live
  rcases whole with ⟨none, _⟩ | ⟨_, _, _, _, _, _, _, among, _, _, _, noted, _⟩
  · cases none
  · cases List.mem_singleton.mp among
    exact ⟨_, _, live, noted⟩

end NetObserver
