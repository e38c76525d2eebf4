import NetObserver.EntityStore
import NetObserver.RecordQueries
import NetObserver.VulnDb

/-! What the scans of the `cve` rung leave in the record, and the default view of it. -/

namespace NetObserver

open Machine Relational StdText

/-- The leading run that looks like a version. -/
def sanitizeVersion (raw : List Char) : Option String :=
  if raw.head?.any Char.isDigit then
    let v := raw.takeWhile fun c => c.isAlphanum || c == '.'
    if v.isEmpty then none else some (String.ofList v)
  else none

/-- A token that names a product and, behind the separator, its version. -/
def productToken (separator : Char) (token : List Char) : Option Cpe :=
  let (product, behind) := splitOnce separator token
  behind.bind fun version =>
    if product.isEmpty || version.isEmpty then none
    else (sanitizeVersion version).map fun v =>
      { vendor := none, product := String.ofList (product.map Char.toLower), version := some v }

/-- `SSH-2.0-OpenSSH_7.4p1 Debian-10`. -/
def parseSsh (banner : List Char) : Option Cpe := do
  let rest ← ['S', 'S', 'H', '-'].isPrefixOf? banner
  let software ← (splitOnce '-' rest).2
  let token ← (splitWhitespace software).head?
  productToken '_' token

/-- `Server: nginx/1.18.0` or `Apache/2.4.41 (Ubuntu)`. -/
def parseHttpServer (banner : List Char) : Option Cpe :=
  let value := match splitOnce ':' banner with
    | (key, some v) => if Mdns.eqIgnoreAsciiCase (String.ofList key) "server" then trim v else banner
    | _ => banner
  (splitWhitespace value).head?.bind (productToken '/')

def parseBanner (banner : String) : Option Cpe :=
  let banner := trim banner.toList
  if banner.isEmpty then none else (parseSsh banner).or (parseHttpServer banner)

example : (parseBanner "SSH-2.0-OpenSSH_8.2p1 Ubuntu-4").map (fun cpe => (cpe.product, cpe.version)) =
    some ("openssh", some "8.2p1") := by decide

def Confidence.token : Confidence → String
  | .low => "low"
  | .medium => "medium"
  | .high => "high"

/-- `f64::from`, which is exact. -/
def f64From (q : ℚ) : F64 := .finite (decide (q < 0)) q.nnabs

/-- A port without a banner that names a product matches nothing. -/
def matchVulns (db : VulnDb) (ports : List NeighborPort) (tsUs : Int) : List NeighborVuln :=
  (ports.filterMap fun p => (p.banner.bind parseBanner).map fun cpe => (p, cpe)).flatMap
    fun (p, cpe) => (db.matchProduct cpe).map fun m =>
      { networkKey := p.networkKey, mac := p.mac, port := p.port, cveId := m.cveId
        confidence := m.confidence.token, knownExploited := m.knownExploited
        cvss := m.cvss.map f64From, tsUs := tsUs }

/-- A scan whose `cve` rung ran: its port rows, the index they are matched against, its stamp. -/
structure CveScan where
  tsUs : Int
  ports : List NeighborPort
  db : VulnDb
  inRange : i64Min ≤ tsUs ∧ tsUs ≤ i64Max

namespace CveScan

def vulns (s : CveScan) : List NeighborVuln := matchVulns s.db s.ports s.tsUs

def rows (s : CveScan) : List NeighborVulnRow := s.vulns.map NeighborVuln.row

def write (t : EntityTables) (s : CveScan) : EntityTables :=
  let scanned := s.ports.foldl (fun t p => t.write (.neighborPort p)) t
  s.vulns.foldl (fun t v => t.write (.neighborVuln v)) scanned

end CveScan

/-- What is written to the entity tables: a scan, or anything that is no finding of one. -/
inductive VulnEvent where
  | scan (s : CveScan)
  | other (w : EntityWrite) (passive : w.vulnRows = [])

namespace VulnEvent

def scan? : VulnEvent → Option CveScan
  | scan s => some s
  | other .. => none

def write (t : EntityTables) : VulnEvent → EntityTables
  | scan s => s.write t
  | other w _ => t.write w

def rows : VulnEvent → List NeighborVulnRow
  | scan s => s.rows
  | other .. => []

end VulnEvent

structure CveHistory where
  events : List VulnEvent
  rising : (events.filterMap VulnEvent.scan?).Pairwise fun a b => a.tsUs < b.tsUs

namespace CveHistory

def scans (h : CveHistory) : List CveScan := h.events.filterMap VulnEvent.scan?

def tables (h : CveHistory) : EntityTables := h.events.foldl VulnEvent.write .empty

end CveHistory

def vulnColumns : List String :=
  ["mac", "ip", "port", "cve_id", "confidence", "known_exploited", "cvss", "last_seen_us"]

abbrev VulnEntry := NeighborVulnRow × Option NeighborPortRow

namespace VulnEntry

/-- `round` renders `ROUND(cvss, 1)`. -/
def cells (round : F64 → String) (e : VulnEntry) : List String :=
  [e.1.mac, (e.2.map NeighborPortRow.ip).getD "", toString e.1.port, e.1.cveId, e.1.confidence,
    toString e.1.knownExploited, (e.1.cvss.map round).getD "", toString e.1.lastSeenUs]

def newerFirst (a b : VulnEntry) : Bool :=
  ((compare b.1.lastSeenUs a.1.lastSeenUs).then <| (compare a.1.mac b.1.mac).then <|
    (compare a.1.port b.1.port).then (compare a.1.cveId b.1.cveId)).isLE

end VulnEntry

/-- The segment that is asked for, or every one. -/
def admits (network : Option String) (r : NeighborVulnRow) : Bool :=
  network.all fun n => r.networkKey == n

/-- The rows of the answer, in its order. -/
def vulnEntries (network : Option String) (t : EntityTables) : List VulnEntry :=
  ((leftJoin (fun v p => v.networkKey == p.networkKey && v.mac == p.mac && v.port == p.port)
    t.neighborVuln t.neighborPort).filter fun e => admits network e.1).mergeSort VulnEntry.newerFirst

/-- `vulns_sql` for one segment or for all, with the answer of its query; a key that cannot exist is
refused. -/
def vulnsSql (round : F64 → String) (network : Option String) (t : EntityTables) :
    Except String QueryTable :=
  match network.filter fun n => !validNetworkKey n with
  | some n => .error n
  | none => .ok ⟨vulnColumns, (vulnEntries network t).map (VulnEntry.cells round)⟩

/-! The record after a history of scans -/

theorem CveScan.write_neighborVuln (t : EntityTables) (s : CveScan) :
    (s.write t).neighborVuln = neighborVulnTable.writes t.neighborVuln s.rows := by
  have ports := Lifetimes.foldl_writes (T := neighborVulnTable) EntityTables.neighborVuln
    (fun t p => EntityTables.write_neighborVuln t (.neighborPort p)) s.ports t
  have none_ : (s.ports.flatMap fun p => (EntityWrite.neighborPort p).vulnRows) = [] :=
    List.flatMap_eq_nil_iff.mpr fun _ _ => rfl
  have vulns := Lifetimes.foldl_writes (T := neighborVulnTable) EntityTables.neighborVuln
    (fun t v => EntityTables.write_neighborVuln t (.neighborVuln v)) s.vulns
  have rows : (s.vulns.flatMap fun v => (EntityWrite.neighborVuln v).vulnRows) = s.rows :=
    List.map_eq_flatMap.symm
  rw [none_] at ports
  unfold write
  dsimp only
  rw [vulns, ports, rows]
  rfl

theorem CveScan.row_tsUs {s : CveScan} {r : NeighborVulnRow} (mem : r ∈ s.rows) :
    r.firstSeenUs = s.tsUs ∧ r.lastSeenUs = s.tsUs := by
  obtain ⟨v, held, rfl⟩ := List.mem_map.mp mem
  obtain ⟨⟨p, cpe⟩, -, listed⟩ := List.mem_flatMap.mp held
  obtain ⟨m, -, rfl⟩ := List.mem_map.mp listed
  exact ⟨rfl, rfl⟩

namespace CveHistory

variable (h : CveHistory)

theorem tables_neighborVuln :
    h.tables.neighborVuln = neighborVulnTable.writes [] (h.scans.flatMap CveScan.rows) := by
  have each : ∀ t e, (VulnEvent.write t e).neighborVuln =
      neighborVulnTable.writes t.neighborVuln e.rows := by
    intro t e
    cases e with
    | scan s => exact s.write_neighborVuln t
    | other w passive =>
      have own := EntityTables.write_neighborVuln t w
      rw [passive] at own
      exact own
  have rows : h.events.flatMap VulnEvent.rows = h.scans.flatMap CveScan.rows := by
    unfold scans
    induction h.events with
    | nil => rfl
    | cons e rest ih =>
      cases e with
      | scan s =>
        rw [List.flatMap_cons, ih]
        rfl
      | other w passive => exact ih
  unfold tables
  rw [Lifetimes.foldl_writes EntityTables.neighborVuln each, rows]
  rfl

theorem rising_scans : h.scans.Pairwise fun a b => a.tsUs < b.tsUs := h.rising

/-- The rows are written in the order of their stamps. -/
theorem inOrder : neighborVulnTable.InOrder (h.scans.flatMap CveScan.rows) := by
  have ordered : (h.scans.flatMap CveScan.rows).Pairwise fun a b =>
      a.firstSeenUs ≤ b.firstSeenUs ∧ a.lastSeenUs ≤ b.lastSeenUs := by
    rw [List.pairwise_flatMap]
    constructor
    · intro s _
      apply List.pairwise_of_forall_mem_list
      intro a mem b mem'
      obtain ⟨first, last⟩ := CveScan.row_tsUs mem
      obtain ⟨first', last'⟩ := CveScan.row_tsUs mem'
      omega
    · apply h.rising_scans.imp
      intro s s' before a mem b mem'
      obtain ⟨first, last⟩ := CveScan.row_tsUs mem
      obtain ⟨first', last'⟩ := CveScan.row_tsUs mem'
      omega
  exact Lifetimes.inOrder_of_pairwise (ordered.imp fun both => both.1) (ordered.imp fun both => both.2)

/-- A stored finding is dated by the last scan that matched it. -/
theorem lastSeen_isGreatest {r : NeighborVulnRow} (mem : r ∈ h.tables.neighborVuln) :
    IsGreatest {t | ∃ s ∈ h.scans, (∃ w ∈ s.rows, w.key = r.key) ∧ s.tsUs = t} r.lastSeenUs := by
  rw [h.tables_neighborVuln] at mem
  have greatest := ((Lifetimes.trueBounds_iff _).mpr h.inOrder).last r mem
  have same : {t | ∃ w ∈ h.scans.flatMap CveScan.rows, w.key = r.key ∧ w.lastSeenUs = t} =
      {t | ∃ s ∈ h.scans, (∃ w ∈ s.rows, w.key = r.key) ∧ s.tsUs = t} := by
    ext t
    constructor
    · rintro ⟨w, held, same, rfl⟩
      obtain ⟨s, listed, own⟩ := List.mem_flatMap.mp held
      exact ⟨s, listed, ⟨w, own, same⟩, (CveScan.row_tsUs own).2.symm⟩
    · rintro ⟨s, listed, ⟨w, own, same⟩, rfl⟩
      exact ⟨w, List.mem_flatMap.mpr ⟨s, listed, own⟩, same, (CveScan.row_tsUs own).2⟩
  rw [← same]
  exact greatest

theorem exists_stored {s : CveScan} (listed : s ∈ h.scans) {w : NeighborVulnRow}
    (own : w ∈ s.rows) : ∃ r ∈ h.tables.neighborVuln, r.key = w.key := by
  rw [h.tables_neighborVuln]
  have held : w ∈ h.scans.flatMap CveScan.rows := List.mem_flatMap.mpr ⟨s, listed, own⟩
  obtain ⟨r, mem, key, -⟩ := Lifetimes.exists_row (T := neighborVulnTable) held rfl
  exact ⟨r, mem, key⟩

variable {h} {newest : CveScan}

theorem newest_last (last : h.scans.getLast? = some newest) {s : CveScan} (listed : s ∈ h.scans) :
    s.tsUs ≤ newest.tsUs ∧ (s.tsUs = newest.tsUs → s = newest) := by
  obtain ⟨front, split⟩ := List.getLast?_eq_some_iff.mp last
  have rising := h.rising_scans
  rw [split] at rising listed
  rcases List.mem_append.mp listed with earlier | own
  · have before := (List.pairwise_append.mp rising).2.2 s earlier newest (List.mem_singleton_self _)
    constructor <;> omega
  · rw [List.mem_singleton.mp own]
    exact ⟨Int.le_refl _, fun _ => rfl⟩

/-- The rows dated by the newest scan are those it matched. -/
theorem lastSeen_eq_newest_iff (last : h.scans.getLast? = some newest) {r : NeighborVulnRow}
    (mem : r ∈ h.tables.neighborVuln) :
    r.lastSeenUs = newest.tsUs ↔ ∃ w ∈ newest.rows, w.key = r.key := by
  obtain ⟨⟨s, listed, matched, dated⟩, most⟩ := h.lastSeen_isGreatest mem
  constructor
  · intro same
    rw [← (newest_last last listed).2 (dated.trans same)]
    exact matched
  · intro own
    have bound := most ⟨newest, List.mem_of_getLast? last, own, rfl⟩
    have other := (newest_last last listed).1
    omega

end CveHistory

/-! The default view -/

/-- A segment that the query takes, or every one. -/
abbrev AskedNetwork := Option {n : String // validNetworkKey n = true}

def AskedNetwork.key (network : AskedNetwork) : Option String := network.map Subtype.val

section View

variable {round : F64 → String} {network : AskedNetwork} {h : CveHistory} {newest : CveScan}

theorem vulnsSql_ok (round : F64 → String) (network : AskedNetwork) (t : EntityTables) :
    vulnsSql round network.key t =
      .ok ⟨vulnColumns, (vulnEntries network.key t).map (VulnEntry.cells round)⟩ := by
  have taken : network.key.filter (fun n => !validNetworkKey n) = none := by
    cases network with
    | none => rfl
    | some n => simp [AskedNetwork.key, n.2]
  unfold vulnsSql
  rw [taken]

theorem admits_congr {network : Option String} {r w : NeighborVulnRow} (same : w.key = r.key) :
    admits network w = admits network r := by
  have segment : w.networkKey = r.networkKey := congrArg Prod.fst same
  unfold admits
  rw [segment]

theorem mem_vulnEntries {network : Option String} {t : EntityTables} {e : VulnEntry}
    (mem : e ∈ vulnEntries network t) : e.1 ∈ t.neighborVuln ∧ admits network e.1 = true := by
  obtain ⟨joined, admitted⟩ := List.mem_filter.mp (List.mem_mergeSort.mp mem)
  exact ⟨mem_of_leftJoin joined, admitted⟩

theorem exists_vulnEntry {network : Option String} {t : EntityTables} {r : NeighborVulnRow}
    (mem : r ∈ t.neighborVuln) (admitted : admits network r = true) :
    ∃ o, (r, o) ∈ vulnEntries network t := by
  obtain ⟨o, joined⟩ := exists_leftJoin (fun v p => v.networkKey == p.networkKey && v.mac == p.mac &&
    v.port == p.port) t.neighborPort mem
  exact ⟨o, List.mem_mergeSort.mpr (List.mem_filter.mpr ⟨joined, admitted⟩)⟩

theorem vulnCells_told {e : VulnEntry} (mem : e ∈ vulnEntries network.key h.tables) :
    QueryTable.lastSeen 7 (e.cells round) = some e.1.lastSeenUs := by
  obtain ⟨⟨s, -, -, dated⟩, -⟩ := h.lastSeen_isGreatest (mem_vulnEntries mem).1
  obtain ⟨low, high⟩ := s.inRange
  rw [dated] at low high
  exact parseI64_toString low high

/-- The rows of the answer whose segment, device, port and CVE the scan matched. -/
def CveScan.shown (s : CveScan) (network : Option String) (t : EntityTables) : List VulnEntry :=
  (vulnEntries network t).filter fun e => s.rows.any fun w => w.key = e.1.key

/-- The view without `--all` is the newest scan's findings, each of them. -/
structure ShowsLastScan (round : F64 → String) (network : AskedNetwork) (h : CveHistory)
    (newest : CveScan) (table : QueryTable) : Prop where
  rows : table.keepLastRun.rows = (newest.shown network.key h.tables).map (VulnEntry.cells round)
  each : ∀ w ∈ newest.rows, admits network.key w = true →
    ∃ e ∈ newest.shown network.key h.tables, e.1.key = w.key

/-- Whatever the store answers, the default view of it is the newest scan's. -/
def DefaultViewIsLastScan (round : F64 → String) (network : AskedNetwork) (h : CveHistory) : Prop :=
  ∀ newest, h.scans.getLast? = some newest → ∀ table,
    vulnsSql round network.key h.tables = .ok table → ShowsLastScan round network h newest table

/-- The newest scan matched something in the segment that is asked for, or no scan ever did. -/
def NewestScanMatched (network : AskedNetwork) (h : CveHistory) : Prop :=
  ∀ newest, h.scans.getLast? = some newest →
    (∃ w ∈ newest.rows, admits network.key w = true) ∨
      ∀ s ∈ h.scans, ∀ w ∈ s.rows, admits network.key w = false

theorem kept_rows (round : F64 → String) (network : AskedNetwork) (h : CveHistory) :
    (QueryTable.keepLastRun ⟨vulnColumns,
      (vulnEntries network.key h.tables).map (VulnEntry.cells round)⟩).rows =
      ((vulnEntries network.key h.tables).filter fun e => decide
        (∀ o ∈ vulnEntries network.key h.tables, o.1.lastSeenUs ≤ e.1.lastSeenUs)).map
          (VulnEntry.cells round) :=
  QueryTable.keepLastRun_rows (fun e => e.1.lastSeenUs) (by decide) fun _ mem => vulnCells_told mem

theorem shown_each (last : h.scans.getLast? = some newest) {w : NeighborVulnRow}
    (own : w ∈ newest.rows) (admitted : admits network.key w = true) :
    ∃ e ∈ newest.shown network.key h.tables, e.1.key = w.key := by
  obtain ⟨r, stored, key⟩ := h.exists_stored (List.mem_of_getLast? last) own
  rw [← admits_congr key] at admitted
  obtain ⟨o, mem⟩ := exists_vulnEntry stored admitted
  have matched : (newest.rows.any fun w => w.key = r.key) = true :=
    List.any_eq_true.mpr ⟨w, own, decide_eq_true key.symm⟩
  exact ⟨(r, o), List.mem_filter.mpr ⟨mem, matched⟩, key⟩

/-- Where the newest scan matched something, the maximum is its stamp. -/
theorem newest_iff_matched (last : h.scans.getLast? = some newest) {w : NeighborVulnRow}
    (own : w ∈ newest.rows) (admitted : admits network.key w = true) {e : VulnEntry}
    (mem : e ∈ vulnEntries network.key h.tables) :
    (∀ o ∈ vulnEntries network.key h.tables, o.1.lastSeenUs ≤ e.1.lastSeenUs) ↔
      ∃ w ∈ newest.rows, w.key = e.1.key := by
  have bound : ∀ o ∈ vulnEntries network.key h.tables, o.1.lastSeenUs ≤ newest.tsUs := by
    intro o mem'
    obtain ⟨⟨s, listed, -, dated⟩, -⟩ := h.lastSeen_isGreatest (mem_vulnEntries mem').1
    have most := (CveHistory.newest_last last listed).1
    omega
  rw [← CveHistory.lastSeen_eq_newest_iff last (mem_vulnEntries mem).1]
  constructor
  · intro newer
    obtain ⟨f, shown, key⟩ := shown_each last own admitted
    have held := (List.mem_filter.mp shown).1
    have dated := (CveHistory.lastSeen_eq_newest_iff last (mem_vulnEntries held).1).mpr
      ⟨w, own, key.symm⟩
    have least := newer f held
    have most := bound e mem
    omega
  · intro dated o mem'
    rw [dated]
    exact bound o mem'

/-- An older finding is shown where the newest scan matched nothing. -/
theorem stale_shown (last : h.scans.getLast? = some newest)
    (clean : ∀ w ∈ newest.rows, admits network.key w = false) {s : CveScan} (listed : s ∈ h.scans)
    {w : NeighborVulnRow} (own : w ∈ s.rows) (admitted : admits network.key w = true) :
    ¬ DefaultViewIsLastScan round network h := by
  intro shows
  have rows := (shows newest last _ (vulnsSql_ok round network h.tables)).rows
  have none_ : newest.shown network.key h.tables = [] := by
    refine List.filter_eq_nil_iff.mpr fun e mem matched => ?_
    obtain ⟨w', own', same⟩ := List.any_eq_true.mp matched
    have refused := clean w' own'
    rw [admits_congr (of_decide_eq_true same), (mem_vulnEntries mem).2] at refused
    cases refused
  obtain ⟨r, stored, key⟩ := h.exists_stored listed own
  rw [← admits_congr key] at admitted
  obtain ⟨o, mem⟩ := exists_vulnEntry stored admitted
  obtain ⟨e, held, newer⟩ := QueryTable.exists_newest (fun e : VulnEntry => e.1.lastSeenUs)
    (List.ne_nil_of_mem mem)
  rw [kept_rows, none_, List.map_nil, List.map_eq_nil_iff, List.filter_eq_nil_iff] at rows
  exact rows e held (decide_eq_true newer)

/-- The default view is the last scan's findings if and only if that scan matched something, or no
scan ever did. -/
theorem default_view_iff (round : F64 → String) (network : AskedNetwork) (h : CveHistory) :
    DefaultViewIsLastScan round network h ↔ NewestScanMatched network h := by
  constructor
  · intro shows newest last
    by_contra neither
    rw [not_or] at neither
    obtain ⟨unmatched, some_⟩ := neither
    have clean : ∀ w ∈ newest.rows, admits network.key w = false := by
      intro w own
      exact Bool.eq_false_iff.mpr fun admitted => unmatched ⟨w, own, admitted⟩
    apply some_
    intro s listed w own
    exact Bool.eq_false_iff.mpr fun admitted => stale_shown last clean listed own admitted shows
  · intro fine newest last table answer
    rw [vulnsSql_ok] at answer
    cases answer
    refine ⟨?_, fun w own admitted => shown_each last own admitted⟩
    rw [kept_rows]
    congr 1
    rcases fine newest last with ⟨w, own, admitted⟩ | never
    · apply List.filter_congr
      intro e mem
      rw [Bool.eq_iff_iff, decide_eq_true_eq, newest_iff_matched last own admitted mem,
        List.any_eq_true]
      simp only [decide_eq_true_eq]
    · have empty : vulnEntries network.key h.tables = [] := by
        refine List.eq_nil_iff_forall_not_mem.mpr fun e mem => ?_
        obtain ⟨stored, admitted⟩ := mem_vulnEntries mem
        obtain ⟨⟨s, listed, ⟨w, own, key⟩, -⟩, -⟩ := h.lastSeen_isGreatest stored
        have refused := never s listed w own
        rw [admits_congr key, admitted] at refused
        cases refused
      unfold CveScan.shown
      rw [empty]
      rfl

end View

/-- An index with one entry, of every version of OpenSSH. -/
def openSshIndex : VulnDb where
  entries := [⟨"CVE-2018-15473", "", none, [⟨none, "openssh", []⟩]⟩]
  byProduct := fun product => if product = "openssh" then some [0] else none
  kev := fun _ => false

def openPort : NeighborPort :=
  ⟨none, "aa:bb:cc:dd:ee:01", "10.0.0.5", 22, 1000, some "SSH-2.0-OpenSSH_7.4"⟩

/-- A scan that matches, and one behind it that finds the port closed. -/
def portClosed : CveHistory where
  events := [.scan ⟨1000, [openPort], openSshIndex, by decide⟩,
    .scan ⟨2000, [], openSshIndex, by decide⟩]
  rising := by decide

theorem openPort_matched : ∃ w ∈ (CveScan.mk 1000 [openPort] openSshIndex (by decide)).rows,
    admits none w = true := by
  have parsed : parseBanner "SSH-2.0-OpenSSH_7.4" = some ⟨none, "openssh", some "7.4"⟩ := by rfl
  have held : ∃ m, m ∈ openSshIndex.matchProduct ⟨none, "openssh", some "7.4"⟩ := by
    have folded : StdText.trimLower "openssh" = "openssh" := by decide
    refine ⟨⟨"CVE-2018-15473", "", .medium, false, none⟩, ?_⟩
    simp only [VulnDb.matchProduct, folded]
    exact List.mem_mergeSort.mpr List.mem_cons_self
  obtain ⟨m, mem⟩ := held
  refine ⟨_, List.mem_map_of_mem (List.mem_flatMap.mpr ⟨(openPort, _), ?_, List.mem_map_of_mem mem⟩),
    rfl⟩
  have named : openPort.banner.bind parseBanner = some ⟨none, "openssh", some "7.4"⟩ := parsed
  rw [List.mem_filterMap]
  exact ⟨openPort, List.mem_singleton_self _, by rw [named]; rfl⟩

theorem closed_port_still_shown : ¬ DefaultViewIsLastScan F64.fixed2 none portClosed := by
  obtain ⟨w, own, admitted⟩ := openPort_matched
  have last : portClosed.scans.getLast? = some ⟨2000, [], openSshIndex, by decide⟩ := rfl
  refine stale_shown last ?_ List.mem_cons_self own admitted
  intro w none_
  cases none_

end NetObserver
