import NetObserver.CveMessages
import NetObserver.ScanProbes

/-! What a scan of one host for CVEs leaves in the record, and the verdict on it. -/

namespace NetObserver

open Machine Relational StdText Lowercase

namespace CheckCveRun

variable {k : Casing} {round : F64 → String} {all : Bool} (run : CheckCveRun)

theorem options_target : run.options.target = some run.ip := rfl

def ports : PortScanOutcome :=
  (portScan run.os [run.ip] commonPorts run.facts.iface).1

def banners : BannerGrabOutcome := (bannerGrab run.os run.ports.openPorts run.facts.iface).1

def composed : ComposedReport :=
  composeScanReport run.tsUs run.facts.networkKey run.facts.iface run.rungs.sweep run.rungs.arp
    run.rungs.mdns (some run.ports) (some run.banners) (some run.ip)

theorem report_eq : run.report =
    if run.snapshotThere then
      { run.composed with
        vulns := (run.scanner.cveRung run.loadFromDir run.composed.ports run.tsUs).1
        cveNote := (run.scanner.cveRung run.loadFromDir run.composed.ports run.tsUs).2
        scans := run.composed.scans ++
          [⟨run.tsUs, run.composed.networkKey, run.composed.iface, "cve",
            run.scanner.cveSnapshotDir.getD "",
            rowCount (run.scanner.cveRung run.loadFromDir run.composed.ports run.tsUs).1.length, 0,
            some ((run.scanner.cveRung run.loadFromDir run.composed.ports run.tsUs).2.getD
              ((run.scanner.cveRung run.loadFromDir run.composed.ports run.tsUs).1.length.repr ++
                " findings"))⟩] }
    else run.composed := rfl

theorem report_ports : run.report.ports = run.composed.ports := by
  rw [report_eq]
  cases run.snapshotThere <;> rfl

theorem report_message : run.report.message = run.composed.message := by
  rw [report_eq]
  cases run.snapshotThere <;> rfl

/-- The scan of the record that a checked run is. -/
def scanOf (db : VulnDb) : CveScan := ⟨run.tsUs, run.composed.ports, db, run.inRange⟩

theorem vulns_checked (there : run.snapshotThere = true) {db : VulnDb}
    (ready : run.scanner.snapshot run.loadFromDir = .ready db) :
    run.report.vulns = (run.scanOf db).vulns ∧ run.report.cveNote = none := by
  rw [report_eq, there]
  simp only [if_true, SystemScanner.cveRung, ready]
  exact ⟨rfl, trivial⟩

/-- A run that is not checked finds nothing. -/
theorem vulns_unchecked (unchecked : ¬ run.Checked) : run.report.vulns = [] := by
  rw [report_eq]
  cases there : run.snapshotThere with
  | false => rfl
  | true =>
    cases read : run.scanner.snapshot run.loadFromDir with
    | ready db => exact absurd ⟨there, db, read⟩ unchecked
    | unusable note => simp only [if_true, SystemScanner.cveRung, read]

/-- Every port row of the run is of the host. -/
theorem ports_ip {p : NeighborPort} (mem : p ∈ run.report.ports) : p.ip = run.ip.text := by
  rw [report_ports] at mem
  obtain ⟨f, listed, row⟩ := List.mem_filterMap.mp mem
  obtain ⟨mac, _, rfl⟩ := Option.map_eq_some_iff.mp row
  have asked := (mem_portScan_open (f := f) listed).1
  rw [List.mem_singleton.mp asked]

/-- A finding is of a port row of the run. -/
theorem found_port {w : NeighborVulnRow} (mem : w ∈ run.found) : ∃ p ∈ run.report.ports,
    p.row.key = (w.networkKey, w.mac, w.port) := by
  obtain ⟨v, listed, rfl⟩ := List.mem_map.mp mem
  by_cases checked : run.Checked
  · obtain ⟨there, db, ready⟩ := checked
    rw [(run.vulns_checked there ready).1] at listed
    obtain ⟨⟨p, cpe⟩, paired, matched⟩ := List.mem_flatMap.mp listed
    obtain ⟨m, _, rfl⟩ := List.mem_map.mp matched
    obtain ⟨q, own, pair⟩ := List.mem_filterMap.mp paired
    obtain ⟨_, _, same⟩ := Option.map_eq_some_iff.mp pair
    cases same
    refine ⟨p, ?_, rfl⟩
    rw [report_ports]
    exact own
  · rw [run.vulns_unchecked checked] at listed
    cases listed

/-- The history with what the run writes, of scans that are all its own. -/
theorem exists_extended {written : List VulnEvent} {news : List CveScan}
    (scans : written.filterMap VulnEvent.scan? = news)
    (rising : news.Pairwise fun a b => a.tsUs < b.tsUs) (dated : ∀ s ∈ news, s.tsUs = run.tsUs)
    (left : run.tables = written.foldl VulnEvent.write run.history.tables)
    (rows : news.flatMap CveScan.rows = run.found) :
    ∃ (h : CveHistory) (news : List CveScan), run.tables = h.tables ∧
      h.scans = run.history.scans ++ news ∧ (∀ s ∈ news, s.tsUs = run.tsUs) ∧
      news.flatMap CveScan.rows = run.found := by
  have all : (run.history.events ++ written).filterMap VulnEvent.scan? =
      run.history.scans ++ news := by
    rw [List.filterMap_append, scans]
    rfl
  refine ⟨⟨run.history.events ++ written, ?_⟩, news, ?_, all, dated, rows⟩
  · rw [all, List.pairwise_append]
    refine ⟨run.history.rising, rising, ?_⟩
    intro a before b own
    rw [dated b own]
    exact Int.lt_trans (run.earlier a before) run.later
  · rw [left]
    exact List.foldl_append.symm

/-- The record after the run is that of a longer history, whose later scans are the run's own. -/
theorem exists_after : ∃ (h : CveHistory) (news : List CveScan), run.tables = h.tables ∧
    h.scans = run.history.scans ++ news ∧ (∀ s ∈ news, s.tsUs = run.tsUs) ∧
    news.flatMap CveScan.rows = run.found := by
  by_cases checked : run.Checked
  · obtain ⟨there, db, ready⟩ := checked
    have vulns := (run.vulns_checked there ready).1
    let written : List VulnEvent := [.scan (run.scanOf db), .other (.sample run.report.sample) rfl]
    apply run.exists_extended (show written.filterMap VulnEvent.scan? = [run.scanOf db] from rfl)
    · exact List.pairwise_singleton _ _
    · intro s own
      rw [List.mem_singleton.mp own]
      rfl
    · unfold tables
      simp only [ComposedReport.entities, List.foldl_append, List.foldl_map, List.foldl_cons,
        List.foldl_nil, report_ports, vulns, written]
      rfl
    · rw [List.flatMap_singleton, found, vulns]
      rfl
  · have vulns := run.vulns_unchecked checked
    let written : List VulnEvent :=
      run.report.ports.map (fun p => .other (.neighborPort p) rfl) ++
        [.other (.sample run.report.sample) rfl]
    have none_ : written.filterMap VulnEvent.scan? = [] := by
      apply List.filterMap_eq_nil_iff.mpr
      intro e mem
      rcases List.mem_append.mp mem with port | sample
      · obtain ⟨p, _, rfl⟩ := List.mem_map.mp port
        rfl
      · rw [List.mem_singleton.mp sample]
        rfl
    apply run.exists_extended none_ List.Pairwise.nil
    · intro s mem
      cases mem
    · unfold tables
      simp only [ComposedReport.entities, List.foldl_append, List.foldl_map, List.foldl_cons,
        List.foldl_nil, vulns, written]
      rfl
    · rw [found, vulns]
      rfl

/-- A row of the record's answer is dated since the run's start exactly when the run found it. -/
theorem since_start_iff {e : VulnEntry} (mem : e ∈ vulnEntries none run.tables) :
    QueryTable.lastSeen 7 (e.cells round) = some e.1.lastSeenUs ∧
      (run.scanStartUs ≤ e.1.lastSeenUs ↔ ∃ w ∈ run.found, w.key = e.1.key) := by
  obtain ⟨h, news, after, scans, dated, rows⟩ := run.exists_after
  rw [after] at mem
  have asked : e ∈ vulnEntries (AskedNetwork.key none) h.tables := mem
  refine ⟨vulnCells_told asked, ?_⟩
  obtain ⟨⟨s, listed, matched, last⟩, most⟩ := h.lastSeen_isGreatest (mem_vulnEntries mem).1
  have start := run.later
  constructor
  · intro late
    rw [scans] at listed
    rcases List.mem_append.mp listed with before | own
    · have early := run.earlier s before
      omega
    · obtain ⟨w, held, same⟩ := matched
      rw [← rows]
      exact ⟨w, List.mem_flatMap.mpr ⟨s, own, held⟩, same⟩
  · rintro ⟨w, own, same⟩
    rw [← rows] at own
    obtain ⟨s, listed, held⟩ := List.mem_flatMap.mp own
    have inAll : s ∈ h.scans := by
      rw [scans]
      exact List.mem_append_right _ listed
    have bound : s.tsUs ≤ e.1.lastSeenUs := most ⟨s, inAll, ⟨w, held, same⟩, rfl⟩
    rw [dated s listed] at bound
    omega

/-- The port rows of the record after the run, of the ports that it found open. -/
theorem tables_neighborPort : run.tables.neighborPort =
    neighborPortTable.writes run.history.tables.neighborPort
      (run.report.ports.map NeighborPort.row) := by
  have each := Lifetimes.foldl_writes (T := neighborPortTable) EntityTables.neighborPort
    EntityTables.write_neighborPort run.report.entities run.history.tables
  have brought : run.report.entities.flatMap EntityWrite.portRows =
      run.report.ports.map NeighborPort.row := by
    have noVuln : (run.report.vulns.map EntityWrite.neighborVuln).flatMap EntityWrite.portRows = [] := by
      rw [List.flatMap_map]
      exact List.flatMap_eq_nil_iff.mpr fun _ _ => rfl
    have sample : [EntityWrite.sample run.report.sample].flatMap EntityWrite.portRows = [] := rfl
    rw [ComposedReport.entities, List.flatMap_append, List.flatMap_append, noVuln, sample,
      List.append_nil, List.append_nil, List.flatMap_map]
    exact List.map_eq_flatMap.symm
  rw [brought] at each
  exact each

/-- What the run found is shown under the host's address. -/
theorem found_ip {e : VulnEntry} (mem : e ∈ vulnEntries none run.tables)
    (own : ∃ w ∈ run.found, w.key = e.1.key) :
    (e.2.map NeighborPortRow.ip).getD "" = run.ip.text := by
  obtain ⟨w, listed, same⟩ := own
  obtain ⟨p, open_, key⟩ := run.found_port listed
  have joined := (List.mem_filter.mp (List.mem_mergeSort.mp mem)).1
  have parts : p.row.key = (e.1.networkKey, e.1.mac, e.1.port) := by
    rw [key]
    exact congrArg (fun k : String × String × Nat × String => (k.1, k.2.1, k.2.2.1)) same
  have written : p.row ∈ run.report.ports.map NeighborPort.row := List.mem_map_of_mem open_
  obtain ⟨r, o⟩ := e
  cases o with
  | none =>
    -- The run wrote a port row of that key, so the join has a partner for it.
    have partner : ∃ b ∈ neighborPortTable.writes run.history.tables.neighborPort
        (run.report.ports.map NeighborPort.row), b.key = p.row.key :=
      Lifetimes.exists_key_writes (Or.inr ⟨p.row, written, rfl⟩)
    rw [← run.tables_neighborPort] at partner
    obtain ⟨b, held, sameKey⟩ := partner
    have apart := (mem_leftJoin_none.mp joined).2 b held
    have bKey : (b.networkKey, b.mac, b.port) = (r.networkKey, r.mac, r.port) := sameKey.trans parts
    simp only [Prod.mk.injEq] at bKey
    simp [bKey] at apart
  | some b =>
    obtain ⟨_, held, on⟩ := mem_leftJoin_some.mp joined
    simp only [Bool.and_eq_true, beq_iff_eq] at on
    have bKey : b.key = p.row.key := by
      rw [parts]
      exact Prod.ext on.1.1.symm (Prod.ext on.1.2.symm on.2.symm)
    rw [run.tables_neighborPort] at held
    have replaced : ∀ old new : NeighborPortRow, (neighborPortTable.merge old new).ip = new.ip :=
      fun _ _ => rfl
    rcases Lifetimes.mem_writes_replaced replaced held with ⟨_, apart⟩ | ⟨q, wrote, _, ip⟩
    · exact absurd bKey.symm (apart p.row written)
    · obtain ⟨p', there, rfl⟩ := List.mem_map.mp wrote
      exact ip.trans (run.ports_ip there)

theorem filterByIp_table : ((run.table round).filterByIp run.ip).rows =
    run.ofHost.map (VulnEntry.cells round) := by
  have col : vulnColumns.idxOf? "ip" = some 1 := rfl
  unfold QueryTable.filterByIp table ofHost
  rw [col]
  dsimp only
  rw [List.filter_map]
  congr 1

/-- The rows kept since the start of the run are those of its findings. -/
theorem keepSince_table : (((run.table round).filterByIp run.ip).keepSince run.scanStartUs).rows =
    run.ofScan.map (VulnEntry.cells round) := by
  have col : vulnColumns.idxOf? "last_seen_us" = some 7 := rfl
  have columns : ((run.table round).filterByIp run.ip).columns = vulnColumns := rfl
  unfold QueryTable.keepSince
  rw [columns, col]
  dsimp only
  rw [filterByIp_table, List.filter_map, ofHost, List.filter_filter, ofScan]
  congr 1
  apply List.filter_congr
  intro e mem
  have since : QueryTable.lastSeen 7 (e.cells round) = some e.1.lastSeenUs ∧
      (run.scanStartUs ≤ e.1.lastSeenUs ↔ ∃ w ∈ run.found, w.key = e.1.key) :=
    run.since_start_iff mem
  obtain ⟨told, late⟩ := since
  rw [Function.comp_apply, told, Option.any_some, Bool.eq_iff_iff, Bool.and_eq_true,
    decide_eq_true_eq, late, List.any_eq_true]
  simp only [decide_eq_true_eq, beq_iff_eq]
  constructor
  · intro both
    exact both.1
  · intro own
    exact ⟨own, run.found_ip mem own⟩

theorem found_shown {w : NeighborVulnRow} (own : w ∈ run.found) :
    ∃ e ∈ run.ofScan, e.1.key = w.key := by
  obtain ⟨h, news, after, scans, _, rows⟩ := run.exists_after
  rw [← rows] at own
  obtain ⟨s, listed, held⟩ := List.mem_flatMap.mp own
  have inAll : s ∈ h.scans := by
    rw [scans]
    exact List.mem_append_right _ listed
  obtain ⟨r, stored, key⟩ := h.exists_stored inAll held
  rw [← after] at stored
  have admitted : admits none r = true := rfl
  obtain ⟨o, mem⟩ := exists_vulnEntry stored admitted
  rw [rows] at own
  exact ⟨(r, o), List.mem_filter.mpr ⟨mem, List.any_eq_true.mpr
    ⟨w, own, decide_eq_true key.symm⟩⟩, key⟩

/-- Something of the run is shown exactly where it found something. -/
theorem ofScan_eq_nil : run.ofScan = [] ↔ run.found = [] := by
  constructor
  · intro none_
    apply List.eq_nil_iff_forall_not_mem.mpr
    intro w own
    obtain ⟨e, mem, _⟩ := run.found_shown own
    rw [none_] at mem
    cases mem
  · intro none_
    apply List.filter_eq_nil_iff.mpr
    intro e _
    rw [none_]
    exact Bool.false_ne_true

/-- What the run found is of the host. -/
theorem ofHost_ne_nil (some_ : run.found ≠ []) : run.ofHost ≠ [] := by
  obtain ⟨w, own⟩ := List.exists_mem_of_ne_nil _ some_
  obtain ⟨e, shown, key⟩ := run.found_shown own
  have mem := (List.mem_filter.mp shown).1
  have ip := run.found_ip mem ⟨w, own, key.symm⟩
  exact List.ne_nil_of_mem (List.mem_filter.mpr ⟨mem, beq_iff_eq.mpr ip⟩)

theorem dropped_eq : (checkCveOptions run.ip).dropped run.snapshotThere =
    if run.snapshotThere then [] else ["cve (" ++ "no CVE snapshot; set collectors.neighbors.cve_snapshot_dir to a provisioned directory" ++ ")"] := by
  unfold ScanOptions.dropped ScanOptions.effective checkCveOptions
  cases run.snapshotThere <;> rfl

/-- The message of a run that is not checked says that the rung was unavailable. -/
theorem unavailable_unchecked (unchecked : ¬ run.Checked) :
    cveRungUnavailable k run.message = true := by
  unfold message
  rw [dropped_eq]
  cases there : run.snapshotThere with
  | false => exact reply_dropped _ _
  | true =>
    cases read : run.scanner.snapshot run.loadFromDir with
    | ready db => exact absurd ⟨there, db, read⟩ unchecked
    | unusable note =>
      have told : run.report.cveNote = some note := by
        rw [report_eq, there]
        simp only [if_true, SystemScanner.cveRung, read]
      exact reply_note read told

/-- Nothing is behind the report's own message where the run is checked. -/
theorem message_checked (checked : run.Checked) : run.message = run.composed.message := by
  obtain ⟨there, db, ready⟩ := checked
  have silent := (run.vulns_checked there ready).2
  unfold message ComposedReport.reply
  rw [dropped_eq, there, silent, report_message]
  simp

/-- The probe of an IPv4 host, refused by the system or by the pin. -/
theorem sweep_v4 {v4 : Ipv4Addr} (address : run.ip = .v4 v4) :
    run.rungs.sweep.target = (IpAddr.v4 v4).text ∧ run.rungs.sweep.refused =
      match run.os.bindUdp with
      | .error e => some ("no socket: " ++ e)
      | .ok () => if run.os.pinUdp then none else some ("could not pin the probe to " ++
          run.facts.iface ++ "; the tunnel would have taken it") := by
  have target : run.options.target = some (.v4 v4) := by rw [options_target, address]
  have sweep : run.rungs.sweep = (singleProbe run.os run.facts.iface v4).1 := by
    change (sweepRung run.os run.facts run.options).1 = _
    unfold sweepRung
    rw [target]
  rw [sweep]
  unfold singleProbe probeAddrs
  cases run.os.bindUdp with
  | error e => exact ⟨rfl, rfl⟩
  | ok _ => cases run.os.pinUdp <;> exact ⟨rfl, rfl⟩

theorem sweep_v6 {v6 : Ipv6Addr} (address : run.ip = .v6 v6) : run.rungs.sweep.refused =
    some "IPv6 targets are not ARP-resolvable; ports/banners/cve still ran" := by
  have target : run.options.target = some (.v6 v6) := by rw [options_target, address]
  change (sweepRung run.os run.facts run.options).1.refused = _
  unfold sweepRung
  rw [target]
  rfl

/-- A telling word in the report's message is in the reason of the probe's refusal. -/
theorem speaks_composed {word : List Char} (tells : word ∈ telling) :
    Speaks k word run.composed.message.toList ↔
      ∃ why, run.rungs.sweep.refused = some why ∧ Speaks k word why.toList := by
  unfold composed
  cases refused : run.rungs.sweep.refused with
  | none =>
    cases address : run.ip with
    | v4 v4 =>
      constructor
      · intro held
        exact absurd held (message_sent tells refused (run.sweep_v4 address).1)
      · rintro ⟨_, none_, _⟩
        cases none_
    | v6 v6 =>
      rw [run.sweep_v6 address] at refused
      cases refused
  | some why =>
    rw [message_refused tells refused]
    constructor
    · intro held
      exact ⟨why, rfl, held⟩
    · rintro ⟨_, same, held⟩
      cases same
      exact held

/-- A checked run is read as unavailable where a refused probe's reason has a telling word. -/
theorem unavailable_checked (checked : run.Checked) : cveRungUnavailable k run.message = true ↔
    ∃ why, run.rungs.sweep.refused = some why ∧ ¬ Unspoken k why := by
  have spoken (why : String) : ¬ Unspoken k why ↔
      Speaks k snapshotWord why.toList ∨ Speaks k droppedWords why.toList := by
    simp only [Unspoken, telling, List.forall_mem_cons, List.not_mem_nil, false_imp_iff,
      implies_true, and_true, not_and_or, not_not]
  have first : snapshotWord ∈ telling := List.mem_cons_self
  have second : droppedWords ∈ telling := List.mem_cons_of_mem _ List.mem_cons_self
  rw [message_checked run checked, cveRungUnavailable_iff, speaks_composed run first,
    speaks_composed run second]
  constructor
  · rintro (⟨⟨why, refused, held⟩, _⟩ | ⟨why, refused, held⟩)
    · exact ⟨why, refused, (spoken why).mpr (Or.inl held)⟩
    · exact ⟨why, refused, (spoken why).mpr (Or.inr held)⟩
  · intro ⟨why, refused, told⟩
    rcases (spoken why).mp told with held | held
    · exact Or.inl ⟨⟨why, refused, held⟩, Or.inl (message_refused_not refused)⟩
    · exact Or.inr ⟨why, refused, held⟩

/-- What the system says about a probe that it refuses, and the name of an interface that the probe
could not be pinned to, have no telling word. -/
def RefusalQuiet (k : Casing) : Prop :=
  run.Checked → ∀ v4, run.ip = .v4 v4 →
    (∀ e, run.os.bindUdp = .error e → Unspoken k e) ∧
      (run.os.bindUdp = .ok () → run.os.pinUdp = false → Unspoken k run.facts.iface)

theorem unspoken_refusal : (∀ e, Unspoken k ("no socket: " ++ e) ↔ Unspoken k e) ∧
    ∀ iface, Unspoken k ("could not pin the probe to " ++ iface ++
      "; the tunnel would have taken it") ↔ Unspoken k iface := by
  constructor
  · intro e
    exact forall₂_congr fun word tells => not_congr ((refusal_speaks tells).1 e)
  · intro iface
    exact forall₂_congr fun word tells => not_congr ((refusal_speaks tells).2 iface)

theorem refusalQuiet_iff : run.RefusalQuiet k ↔
    (run.Checked → ∀ why, run.rungs.sweep.refused = some why → Unspoken k why) := by
  obtain ⟨socket, pin⟩ := unspoken_refusal (k := k)
  unfold RefusalQuiet
  apply imp_congr_right
  intro _
  cases address : run.ip with
  | v4 v4 =>
    have own : (∀ v, IpAddr.v4 v4 = .v4 v →
        (∀ e, run.os.bindUdp = .error e → Unspoken k e) ∧
          (run.os.bindUdp = .ok () → run.os.pinUdp = false → Unspoken k run.facts.iface)) ↔
        (∀ e, run.os.bindUdp = .error e → Unspoken k e) ∧
          (run.os.bindUdp = .ok () → run.os.pinUdp = false → Unspoken k run.facts.iface) := by
      exact ⟨fun all => all v4 rfl, fun both _ _ => both⟩
    rw [own, (run.sweep_v4 address).2]
    cases bound : run.os.bindUdp with
    | error e => simp [socket e]
    | ok _ => cases pinned : run.os.pinUdp <;> simp [pin run.facts.iface]
  | v6 v6 =>
    rw [run.sweep_v6 address]
    constructor
    · intro _ why same word tells
      cases same
      exact quiet_ipv6 tells
    · intro _ _ same
      cases same

/-- The message of a run tells whether it was checked, where no refusal has a telling word. -/
theorem unavailable_iff : (cveRungUnavailable k run.message = true ↔ ¬ run.Checked) ↔
    run.RefusalQuiet k := by
  rw [refusalQuiet_iff]
  constructor
  · intro told checked why refused
    by_contra spoken
    exact told.mp ((run.unavailable_checked checked).mpr ⟨why, refused, spoken⟩) checked
  · intro quiet
    constructor
    · intro said checked
      obtain ⟨why, refused, spoken⟩ := (run.unavailable_checked checked).mp said
      exact spoken (quiet checked why refused)
    · exact run.unavailable_unchecked

/-- Rows that are all of one address are the rows of its focused view. -/
theorem focused_length {t : QueryTable} (columns : t.columns = vulnColumns) {list : List VulnEntry}
    (rows : t.rows = list.map (VulnEntry.cells round))
    (own : ∀ e ∈ list, (e.2.map NeighborPortRow.ip).getD "" = run.ip.text) :
    (t.focusVulnsForIp run.ip).rows.length = list.length := by
  have kept : (t.rows.filter fun row => row[1]?.getD "" == run.ip.text) = t.rows := by
    apply List.filter_eq_self.mpr
    intro row mem
    rw [rows] at mem
    obtain ⟨e, listed, rfl⟩ := List.mem_map.mp mem
    exact beq_iff_eq.mpr (own e listed)
  have focused : (t.focusVulnsForIp run.ip).rows =
      (t.rows.filter fun row => row[1]?.getD "" == run.ip.text).map fun row =>
        [2, 3, 6, 4, 5].map fun i => row[i]?.getD "" := by
    unfold QueryTable.focusVulnsForIp
    rw [columns]
    rfl
  rw [focused, kept, rows, List.length_map, List.length_map]

theorem ofHost_ip {e : VulnEntry} (mem : e ∈ run.ofHost) :
    (e.2.map NeighborPortRow.ip).getD "" = run.ip.text :=
  beq_iff_eq.mp (List.mem_filter.mp mem).2

theorem ofScan_ip {e : VulnEntry} (mem : e ∈ run.ofScan) :
    (e.2.map NeighborPortRow.ip).getD "" = run.ip.text := by
  obtain ⟨shown, some_⟩ := List.mem_filter.mp mem
  obtain ⟨w, own, same⟩ := List.any_eq_true.mp some_
  exact run.found_ip shown ⟨w, own, of_decide_eq_true same⟩

/-- The verdict, out of what is shown of the host and of the run. -/
theorem checkCve_eq : checkCve k run.message (run.table round) run.ip run.scanStartUs all =
    checkCveOutcome (if all then run.ofHost.length else run.ofScan.length) (!run.ofHost.isEmpty)
      (!cveRungUnavailable k run.message) := by
  have host : ((run.table round).filterByIp run.ip).rows = run.ofHost.map (VulnEntry.cells round) :=
    run.filterByIp_table
  have columns : ((run.table round).filterByIp run.ip).columns = vulnColumns := rfl
  have kept : (((run.table round).filterByIp run.ip).keepSince run.scanStartUs).columns =
      vulnColumns := rfl
  unfold checkCve
  dsimp only
  rw [host, List.isEmpty_map]
  cases all with
  | true => rw [if_pos rfl, if_pos rfl, run.focused_length columns host fun _ => run.ofHost_ip]
  | false =>
    rw [if_neg Bool.false_ne_true, if_neg Bool.false_ne_true,
      run.focused_length kept run.keepSince_table fun _ => run.ofScan_ip]

/-- The verdict describes the situation, where the message is read right. -/
theorem situation_checkCve (told : cveRungUnavailable k run.message = true ↔ ¬ run.Checked) :
    run.Situation all (checkCve k run.message (run.table round) run.ip run.scanStartUs all) := by
  rw [checkCve_eq]
  cases said : cveRungUnavailable k run.message with
  | true => exact told.mp said
  | false =>
    have checked : run.Checked := by
      by_contra unchecked
      rw [told.mpr unchecked] at said
      cases said
    have count : 0 < (if all then run.ofHost.length else run.ofScan.length) ↔
        if all then run.ofHost ≠ [] else run.found ≠ [] := by
      cases all with
      | true => exact List.length_pos_iff
      | false => exact List.length_pos_iff.trans (not_congr run.ofScan_eq_nil)
    unfold checkCveOutcome
    rw [if_neg (by simp), if_congr count rfl rfl]
    by_cases host : run.ofHost = []
    · have nothing : run.found = [] := by
        by_contra some_
        exact run.ofHost_ne_nil some_ host
      cases all <;> simp [host, nothing, Situation, checked]
    · by_cases nothing : run.found = []
      · cases all <;> simp [host, nothing, Situation, checked]
      · cases all <;> simp [host, nothing, Situation, checked]

/-- No two verdicts describe one situation. -/
theorem situation_unique {a b : CheckCveOutcome} (first : run.Situation all a)
    (second : run.Situation all b) : a = b := by
  unfold Situation at first second
  cases a <;> cases b <;> simp_all

theorem situation_iff (told : cveRungUnavailable k run.message = true ↔ ¬ run.Checked)
    (outcome : CheckCveOutcome) : checkCve k run.message (run.table round) run.ip run.scanStartUs
      all = outcome ↔ run.Situation all outcome := by
  have holds : run.Situation all
      (checkCve k run.message (run.table round) run.ip run.scanStartUs all) :=
    run.situation_checkCve told
  constructor
  · rintro rfl
    exact holds
  · exact run.situation_unique holds

end CheckCveRun

/-- A scan for CVEs is told right exactly where no refused probe gives a reason with a telling
word. -/
theorem check_cve_verdict_iff (run : CheckCveRun) (k : Casing) (round : F64 → String) (all : Bool) :
    run.VerdictHolds k round all ↔ run.RefusalQuiet k := by
  constructor
  · intro holds
    exact run.unavailable_iff.mp holds.unavailable
  · intro quiet
    have told := run.unavailable_iff.mpr quiet
    exact ⟨run.keepSince_table, fun _ => run.found_shown, told, run.situation_iff told⟩

/-- An interface that the probe cannot be pinned to, of a name that has the word. -/
def oddlyNamed : CheckCveRun where
  history := ⟨[], List.Pairwise.nil⟩
  scanStartUs := 0
  tsUs := 1
  earlier := fun _ none_ => nomatch none_
  later := by decide
  inRange := by decide
  os :=
    { bindUdp := .ok ()
      pinUdp := false
      sendTo := fun _ => false
      newTcp := fun _ _ _ => true
      pinTcp := fun _ _ _ => false
      connect := fun _ _ _ => false
      greeting := fun _ _ => none
      sweepMs := 0
      portsMs := 0
      bannersMs := 0 }
  facts := ⟨"snapshot0", none, none, [], ⟨fun _ => none, 0, 0⟩⟩
  scanner := ⟨some "/var/lib/cve", none⟩
  loadFromDir := fun _ => .ok openSshIndex
  snapshotThere := true
  ip := .v4 #v[10, 0, 0, 5]
  scannable := by decide

theorem oddlyNamed_checked : oddlyNamed.Checked := ⟨rfl, openSshIndex, rfl⟩

theorem checked_run_unavailable : oddlyNamed.Checked ∧
    cveRungUnavailable .plain oddlyNamed.message = true ∧
    ¬ oddlyNamed.VerdictHolds .plain (fun _ => "") false := by
  have refused : oddlyNamed.rungs.sweep.refused =
      some "could not pin the probe to snapshot0; the tunnel would have taken it" := rfl
  have spoken : Speaks .plain snapshotWord
      "could not pin the probe to snapshot0; the tunnel would have taken it".toList :=
    (speaks_literal rfl).mpr (contains_iff.mp rfl)
  have said : cveRungUnavailable .plain oddlyNamed.message = true :=
    (oddlyNamed.unavailable_checked oddlyNamed_checked).mpr
      ⟨_, refused, fun quiet => quiet snapshotWord List.mem_cons_self spoken⟩
  exact ⟨oddlyNamed_checked, said,
    fun holds => holds.unavailable.mp said oddlyNamed_checked⟩

end NetObserver
