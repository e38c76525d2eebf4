import NetObserver.CveSnapshots
import NetObserver.Lowercase
import NetObserver.NeighborScanner

/-! The scan of one host for CVEs: what the daemon reports and writes, and the verdict the client
makes out of its message and of the record. -/

namespace NetObserver

open Machine Relational StdText

/-- The `cve` rung over the port rows of a scan. -/
def SystemScanner.cveRung (loadFromDir : String → Except String VulnDb) (s : SystemScanner)
    (ports : List NeighborPort) (tsUs : Int) : List NeighborVuln × Option String :=
  match s.snapshot loadFromDir with
  | .ready db => (matchVulns db ports tsUs, none)
  | .unusable note => ([], some note)

/-- `SystemScanner::scan` behind its rungs. -/
def SystemScanner.report (loadFromDir : String → Except String VulnDb) (s : SystemScanner)
    (facts : ScanFacts) (opts : ScanOptions) (run : RungsRun) (tsUs : Int) : ComposedReport :=
  let report := composeScanReport tsUs facts.networkKey facts.iface run.sweep run.arp run.mdns
    run.ports run.banners opts.target
  if opts.cve then
    let (vulns, note) := s.cveRung loadFromDir report.ports tsUs
    { report with
      vulns := vulns
      cveNote := note
      scans := report.scans ++
        [⟨tsUs, report.networkKey, report.iface, "cve", s.cveSnapshotDir.getD "",
          rowCount vulns.length, 0, some (note.getD (vulns.length.repr ++ " findings"))⟩] }
  else report

/-- The message of `scan_now` where every row could be written. -/
def ComposedReport.reply (r : ComposedReport) (dropped : List String) : String :=
  r.message ++ (if dropped.isEmpty then "" else " [dropped: " ++ ", ".intercalate dropped ++ "]") ++
    (r.cveNote.map fun note => " [cve: " ++ note ++ "]").getD ""

/-- The rows of a report that go to the entity tables, in the order they are written. -/
def ComposedReport.entities (r : ComposedReport) : List EntityWrite :=
  r.ports.map .neighborPort ++ r.vulns.map .neighborVuln ++ [.sample r.sample]

inductive CheckCveOutcome where
  | findings
  | noFreshButHasHistory
  | noFindings
  | snapshotUnavailable
deriving DecidableEq

def checkCveOutcome (shownCount : Nat) (hasHistory cveRan : Bool) : CheckCveOutcome :=
  if !cveRan then .snapshotUnavailable
  else if 0 < shownCount then .findings
  else if hasHistory then .noFreshButHasHistory
  else .noFindings

def snapshotWord : List Char := "snapshot".toList

def droppedWords : List Char := "dropped: cve".toList

def cveRungUnavailable (k : Lowercase.Casing) (message : String) : Bool :=
  let m := Lowercase.lower k message.toList
  (contains snapshotWord m &&
      (contains "not".toList m || contains "without".toList m || contains "unusable".toList m)) ||
    contains droppedWords m

/-- `filter_by_ip`. -/
def QueryTable.filterByIp (t : QueryTable) (ip : IpAddr) : QueryTable :=
  match t.columns.idxOf? "ip" with
  | none => t
  | some col => { t with rows := t.rows.filter fun row => row[col]? == some ip.text }

/-- `keep_since`. -/
def QueryTable.keepSince (t : QueryTable) (thresholdUs : Int) : QueryTable :=
  match t.columns.idxOf? "last_seen_us" with
  | none => t
  | some col =>
    { t with rows := t.rows.filter fun row => (lastSeen col row).any fun ts => thresholdUs ≤ ts }

def focusedVulnColumns : List String := ["port", "cve_id", "cvss", "confidence", "known_exploited"]

/-- `focus_vulns_for_ip`, its rows before they are sorted in place. -/
def QueryTable.focusVulnsForIp (t : QueryTable) (ip : IpAddr) : QueryTable :=
  let col := t.columns.idxOf?
  let rows := do
    let ipCol ← col "ip"
    let portCol ← col "port"
    let cveCol ← col "cve_id"
    let confCol ← col "confidence"
    let kevCol ← col "known_exploited"
    let cvssCol ← col "cvss"
    some ((t.rows.filter fun row => row[ipCol]?.getD "" == ip.text).map fun row =>
      [portCol, cveCol, cvssCol, confCol, kevCol].map fun i => row[i]?.getD "")
  ⟨focusedVulnColumns, rows.getD []⟩

/-- The verdict on a scan that went through: its message, the record's answer behind it, and the
instant in front of it. -/
def checkCve (k : Lowercase.Casing) (message : String) (table : QueryTable) (ip : IpAddr)
    (scanStartUs : Int) (all : Bool) : CheckCveOutcome :=
  let ipRows := table.filterByIp ip
  let hasHistory := !ipRows.rows.isEmpty
  let shown := if all then ipRows else ipRows.keepSince scanStartUs
  checkCveOutcome (shown.focusVulnsForIp ip).rows.length hasHistory (!cveRungUnavailable k message)

/-- The scan that `check-cve` asks for. -/
def checkCveOptions (ip : IpAddr) : ScanOptions := ⟨true, true, true, some ip, false, none⟩

/-- A scan for CVEs as the daemon runs it for the client: the history of the record before it, the
two readings of the clock around its start, and what it meets. -/
structure CheckCveRun where
  history : CveHistory
  scanStartUs : Int
  tsUs : Int
  earlier : ∀ s ∈ history.scans, s.tsUs < scanStartUs
  later : scanStartUs < tsUs
  inRange : i64Min ≤ tsUs ∧ tsUs ≤ i64Max
  os : SocketCalls
  facts : ScanFacts
  scanner : SystemScanner
  loadFromDir : String → Except String VulnDb
  snapshotThere : Bool
  ip : IpAddr
  scannable : ip.scannable = true

namespace CheckCveRun

variable (run : CheckCveRun)

def options : ScanOptions := (checkCveOptions run.ip).effective run.snapshotThere

def rungs : RungsRun := runRungs run.os run.facts run.options

theorem scanNow_eq : scanNow run.os (some run.facts) true true run.snapshotThere
    (checkCveOptions run.ip) = .ok run.rungs := by
  have admitted : admitScan true true (checkCveOptions run.ip) = .ok () := by
    have passes : ¬ (!run.ip.scannable) = true := by simp [run.scannable]
    unfold admitScan checkCveOptions
    rw [Option.filter_some, if_neg passes]
    rfl
  unfold scanNow
  rw [admitted]
  rfl

def report : ComposedReport :=
  run.scanner.report run.loadFromDir run.facts run.options run.rungs run.tsUs

def message : String := run.report.reply ((checkCveOptions run.ip).dropped run.snapshotThere)

def tables : EntityTables := run.report.entities.foldl EntityTables.write run.history.tables

/-- The CVEs were looked up: the rung was not dropped, and there was a snapshot for it. -/
def Checked : Prop :=
  run.snapshotThere = true ∧ ∃ db, run.scanner.snapshot run.loadFromDir = .ready db

/-- The rows of the scan's own findings. -/
def found : List NeighborVulnRow := run.report.vulns.map NeighborVuln.row

/-- The record's answer to `vulns` after the scan. -/
def table (round : F64 → String) : QueryTable :=
  ⟨vulnColumns, (vulnEntries none run.tables).map (VulnEntry.cells round)⟩

/-- The rows of that answer that are of the host. -/
def ofHost : List VulnEntry := (vulnEntries none run.tables).filter fun e =>
  (e.2.map NeighborPortRow.ip).getD "" == run.ip.text

/-- The ones of the scan's own findings. -/
def ofScan : List VulnEntry := (vulnEntries none run.tables).filter fun e =>
  run.found.any fun w => w.key = e.1.key

/-- What each verdict says of the scan and the record. -/
def Situation (all : Bool) : CheckCveOutcome → Prop
  | .snapshotUnavailable => ¬ run.Checked
  | .findings => run.Checked ∧ (run.found ≠ [] ∨ all = true ∧ run.ofHost ≠ [])
  | .noFreshButHasHistory => run.Checked ∧ run.found = [] ∧ all = false ∧ run.ofHost ≠ []
  | .noFindings => run.Checked ∧ run.found = [] ∧ run.ofHost = []

/-- The verdict is about this scan: the rows kept are the ones it wrote, the message is read right,
and the verdict given is the one that describes the situation. -/
structure VerdictHolds (k : Lowercase.Casing) (round : F64 → String) (all : Bool) : Prop where
  kept : (((run.table round).filterByIp run.ip).keepSince run.scanStartUs).rows =
    run.ofScan.map (VulnEntry.cells round)
  each : ∀ w ∈ run.found, ∃ e ∈ run.ofScan, e.1.key = w.key
  unavailable : cveRungUnavailable k run.message = true ↔ ¬ run.Checked
  verdict : ∀ outcome, checkCve k run.message (run.table round) run.ip run.scanStartUs all =
    outcome ↔ run.Situation all outcome

end CheckCveRun

end NetObserver
