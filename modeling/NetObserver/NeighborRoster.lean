import Mathlib.Data.List.Induction
import NetObserver.Lifetimes
import NetObserver.QueryTable
import NetObserver.Samples

/-! The neighbours of a segment: what a reading leaves in the record, and the default view of the
newest of them. -/

namespace NetObserver

open Machine

def NeighborSource.token : NeighborSource → String
  | .arp => "arp"
  | .ndp => "ndp"
  | .sweep => "sweep"
  | .mdns => "mdns"
  | .announce => "announce"

def AnnounceKind.token : AnnounceKind → String
  | .mdns => "mdns"
  | .ssdp => "ssdp"
  | .dhcp => "dhcp"

def NeighborsVerdict.token : NeighborsVerdict → String
  | .ok => "OK"
  | .skip => "SKIP"

/-- The vendor's first three octets. -/
def NeighborObs.oui (nb : NeighborObs) : Option String :=
  match nb.mac.splitOn ":" with
  | a :: b :: c :: _ => some (a ++ ":" ++ b ++ ":" ++ c)
  | _ => none

/-- A row of `neighbor_sample`, one per reading. -/
structure NeighborSampleRow where
  tsUs : Int
  networkKey : Option String
  iface : Option String
  verdict : String
  reason : Option String
  neighborCount : Nat
  heardFrames : Option Nat
  ownFrames : Option Nat
  droppedFrames : Option Nat

structure NeighborRow where
  networkKey : String
  mac : String
  ip : String
  iface : Option String
  oui : Option String
  hostname : Option String
  source : String
  firstSeenUs : Int
  lastSeenUs : Int

structure NeighborServiceRow where
  networkKey : String
  mac : String
  ip : Option String
  service : String
  kind : String
  detail : Option String
  firstSeenUs : Int
  lastSeenUs : Int

/-- What a reading writes to. -/
structure NeighborTables where
  samples : List NeighborSampleRow
  neighbors : List NeighborRow
  services : List NeighborServiceRow

def NeighborTables.empty : NeighborTables := ⟨[], [], []⟩

def unknownNetwork : String := "unknown"

def NeighborRow.key (r : NeighborRow) : String × String := (r.networkKey, r.mac)

/-- A sighting keeps since when the device is known, its vendor, and a name it does not carry. -/
def NeighborRow.merge (old new : NeighborRow) : NeighborRow :=
  { old with
    ip := new.ip
    iface := new.iface
    hostname := new.hostname.or old.hostname
    source := new.source
    lastSeenUs := new.lastSeenUs }

def NeighborServiceRow.key (r : NeighborServiceRow) : String × String × String :=
  (r.networkKey, r.mac, r.service)

def NeighborServiceRow.merge (old new : NeighborServiceRow) : NeighborServiceRow :=
  { old with
    ip := new.ip.or old.ip
    kind := new.kind
    detail := new.detail.or old.detail
    lastSeenUs := new.lastSeenUs }

def neighborTable : Lifetimes NeighborRow (String × String) where
  key := NeighborRow.key
  merge := NeighborRow.merge
  first := NeighborRow.firstSeenUs
  last := NeighborRow.lastSeenUs
  key_merge _ _ := rfl
  first_merge _ _ := rfl
  last_merge _ _ := rfl

def neighborServiceTable : Lifetimes NeighborServiceRow (String × String × String) where
  key := NeighborServiceRow.key
  merge := NeighborServiceRow.merge
  first := NeighborServiceRow.firstSeenUs
  last := NeighborServiceRow.lastSeenUs
  key_merge _ _ := rfl
  first_merge _ _ := rfl
  last_merge _ _ := rfl

namespace NeighborsSample

/-- The segment a reading is written under. -/
def segment (n : NeighborsSample) : String := n.networkKey.getD unknownNetwork

def sampleRow (n : NeighborsSample) : NeighborSampleRow :=
  ⟨n.tsUs, n.networkKey, n.iface, n.verdict.token, n.reason, min n.neighbors.length 2147483647,
    n.heard.map (·.total), n.heard.bind (·.own), n.heard.map (·.dropped)⟩

def neighborRow (n : NeighborsSample) (nb : NeighborObs) : NeighborRow :=
  ⟨n.segment, nb.mac, nb.ip, n.iface, nb.oui, nb.hostname, nb.source.token, n.tsUs, n.tsUs⟩

def serviceRow (n : NeighborsSample) (svc : AnnouncedService) : NeighborServiceRow :=
  ⟨n.segment, svc.mac, svc.ip, svc.service, svc.kind.token, svc.detail, n.tsUs, n.tsUs⟩

def upsertNeighbors (n : NeighborsSample) (rows : List NeighborRow) : List NeighborRow :=
  (n.neighbors.map n.neighborRow).foldl (Keyed.upsert NeighborRow.key NeighborRow.merge) rows

/-- `write_sample` of a reading: its own row, a row per neighbour, a row per service. -/
def write (t : NeighborTables) (n : NeighborsSample) : NeighborTables where
  samples := t.samples ++ [n.sampleRow]
  neighbors := n.upsertNeighbors t.neighbors
  services := (n.services.map n.serviceRow).foldl
    (Keyed.upsert NeighborServiceRow.key NeighborServiceRow.merge) t.services

def names (key mac : String) (n : NeighborsSample) : Bool :=
  n.segment == key && n.neighbors.any fun nb => nb.mac == mac

end NeighborsSample

/-- Who writes a reading: the collector's tick over the OS caches, the listener's flush, or an
operator's scan. -/
inductive NeighborWriter where
  | cacheTick
  | announceFlush
  | scan
deriving DecidableEq

structure NeighborWrite where
  writer : NeighborWriter
  sample : NeighborsSample

def writeNeighbors (writes : List NeighborWrite) : NeighborTables :=
  writes.foldl (fun t w => w.sample.write t) .empty

/-- A MAC, or the literal the store writes where the gateway's could not be read. -/
def validNetworkKey (n : String) : Bool :=
  n == unknownNetwork ||
    n.utf8ByteSize == 17 && (n.splitOn ":").length == 6 &&
      (n.splitOn ":").all fun octet =>
        octet.utf8ByteSize == 2 && octet.toList.all fun c =>
          c.isDigit || ('a' ≤ c && c ≤ 'f') || ('A' ≤ c && c ≤ 'F')

def neighborColumns : List String :=
  ["network_key", "mac", "ip", "oui", "hostname", "source", "iface", "first_seen_us",
    "last_seen_us"]

def NeighborRow.cells (r : NeighborRow) : List String :=
  [r.networkKey, r.mac, r.ip, r.oui.getD "", r.hostname.getD "", r.source, r.iface.getD "",
    toString r.firstSeenUs, toString r.lastSeenUs]

def NeighborRow.newerFirst (a b : NeighborRow) : Bool :=
  b.lastSeenUs < a.lastSeenUs || (a.lastSeenUs == b.lastSeenUs && decide (a.mac ≤ b.mac))

/-- `neighbors_sql` for one segment or for all, with the answer of its query; a key that cannot
exist is refused. -/
def neighborsSql (network : Option String) (t : NeighborTables) : Except String QueryTable :=
  let answer (rows : List NeighborRow) : QueryTable :=
    ⟨neighborColumns, (rows.mergeSort NeighborRow.newerFirst).map NeighborRow.cells⟩
  match network with
  | none => .ok (answer t.neighbors)
  | some n =>
    if validNetworkKey n then .ok (answer (t.neighbors.filter fun r => r.networkKey == n))
    else .error n

/-- The instant of the newest reading that names a device of the segment. -/
def lastSighting (writes : List NeighborWrite) (key mac : String) : Option Int :=
  (writes.filter fun w => w.sample.names key mac).getLast?.map fun w => w.sample.tsUs

theorem lastSighting_snoc (writes : List NeighborWrite) (w : NeighborWrite) (key mac : String) :
    lastSighting (writes ++ [w]) key mac =
      if w.sample.names key mac then some w.sample.tsUs else lastSighting writes key mac := by
  unfold lastSighting
  rw [List.filter_append]
  by_cases named : w.sample.names key mac = true
  · rw [if_pos named, List.filter_cons_of_pos (by exact named), List.filter_nil,
      List.getLast?_concat]
    rfl
  · rw [if_neg named, List.filter_cons_of_neg (by exact named), List.filter_nil, List.append_nil]

theorem names_iff {n : NeighborsSample} {key mac : String} :
    n.names key mac = true ↔ n.segment = key ∧ ∃ nb ∈ n.neighbors, nb.mac = mac := by
  simp [NeighborsSample.names]

theorem names_iff_row {n : NeighborsSample} {key mac : String} :
    n.names key mac = true ↔ ∃ w ∈ n.neighbors.map n.neighborRow, w.key = (key, mac) := by
  rw [names_iff]
  constructor
  · rintro ⟨rfl, nb, listed, rfl⟩
    exact ⟨n.neighborRow nb, List.mem_map_of_mem listed, rfl⟩
  · rintro ⟨w, listed, same⟩
    obtain ⟨nb, own, rfl⟩ := List.mem_map.mp listed
    obtain ⟨segment, named⟩ := Prod.mk.inj same
    exact ⟨segment, nb, own, named⟩

/-- A reading's upserts date the rows it names and leave the others. -/
theorem mem_upsertNeighbors {n : NeighborsSample} {rows : List NeighborRow} {r : NeighborRow}
    (held : r ∈ n.upsertNeighbors rows) :
    (r ∈ rows ∧ ¬ n.names r.networkKey r.mac = true) ∨
      (n.names r.networkKey r.mac = true ∧ r.lastSeenUs = n.tsUs) := by
  rw [names_iff_row]
  rcases Lifetimes.mem_writes (T := neighborTable) held with ⟨was, other⟩ | ⟨w, listed, key, dated⟩
  · left
    refine ⟨was, ?_⟩
    rintro ⟨w, listed, key⟩
    exact other w listed key
  · right
    obtain ⟨nb, -, rfl⟩ := List.mem_map.mp listed
    exact ⟨⟨_, listed, key⟩, dated⟩

theorem upsertNeighbors_keeps {n : NeighborsSample} {rows : List NeighborRow} {key mac : String}
    (has : (∃ r ∈ rows, r.key = (key, mac)) ∨ n.names key mac = true) :
    ∃ r ∈ n.upsertNeighbors rows, r.key = (key, mac) := by
  rw [names_iff_row] at has
  exact Lifetimes.exists_key_writes (T := neighborTable) has

theorem writeNeighbors_snoc (writes : List NeighborWrite) (w : NeighborWrite) :
    (writeNeighbors (writes ++ [w])).neighbors =
      w.sample.upsertNeighbors (writeNeighbors writes).neighbors := by
  unfold writeNeighbors
  rw [List.foldl_append]
  rfl

/-- Each row dates from its device's last sighting. -/
theorem lastSighting_of_row {writes : List NeighborWrite} {r : NeighborRow}
    (held : r ∈ (writeNeighbors writes).neighbors) :
    lastSighting writes r.networkKey r.mac = some r.lastSeenUs := by
  induction writes using List.reverseRecOn with
  | nil => cases held
  | append_singleton past w ih =>
    rw [writeNeighbors_snoc] at held
    rw [lastSighting_snoc]
    rcases mem_upsertNeighbors held with ⟨was, unnamed⟩ | ⟨named, dated⟩
    · rw [if_neg unnamed]
      exact ih was
    · rw [if_pos named, dated]

theorem row_of_lastSighting {writes : List NeighborWrite} {key mac : String} {t : Int}
    (seen : lastSighting writes key mac = some t) :
    ∃ r ∈ (writeNeighbors writes).neighbors, r.key = (key, mac) := by
  induction writes using List.reverseRecOn generalizing t with
  | nil => cases seen
  | append_singleton past w ih =>
    rw [lastSighting_snoc] at seen
    rw [writeNeighbors_snoc]
    apply upsertNeighbors_keeps
    by_cases named : w.sample.names key mac = true
    · exact .inr named
    · rw [if_neg named] at seen
      exact .inl (ih seen)

/-- The newest tick over the caches. -/
def newestTick (key : String) (writes : List NeighborWrite) : Option NeighborsSample :=
  ((writes.filter fun w => w.writer == .cacheTick && w.sample.segment == key).getLast?).map
    NeighborWrite.sample

/-- The default view of a segment: all of the newest tick's devices, and none last seen before
that tick. -/
def LiveRoster (key : String) (writes : List NeighborWrite) (view : QueryTable) : Prop :=
  ∀ tick, newestTick key writes = some tick →
    (∀ nb ∈ tick.neighbors, ∃ row ∈ view.rows, view.cell "mac" row = some nb.mac) ∧
      ∀ row ∈ view.rows, ∀ mac, view.cell "mac" row = some mac →
        ∀ t, lastSighting writes key mac = some t → tick.tsUs ≤ t

/-- A reading that names devices of the segment, none of those being newer. -/
def IsNewestNaming (key : String) (writes : List NeighborWrite) (w : NeighborWrite) : Prop :=
  w ∈ writes ∧ (∃ mac, w.sample.names key mac = true) ∧
    ∀ other ∈ writes, (∃ mac, other.sample.names key mac = true) →
      other.sample.tsUs ≤ w.sample.tsUs

/-- Every device of the newest tick is named again at the newest instant at which any device is,
and that instant is not before the tick. -/
def TickNamedLast (key : String) (writes : List NeighborWrite) : Prop :=
  ∀ tick, newestTick key writes = some tick →
    (∀ nb ∈ tick.neighbors, ∃ w, IsNewestNaming key writes w ∧ w.sample.names key nb.mac = true) ∧
      ∀ w, IsNewestNaming key writes w → tick.tsUs ≤ w.sample.tsUs

theorem lastSighting_eq_some {writes : List NeighborWrite} {key mac : String} {t : Int}
    (seen : lastSighting writes key mac = some t) :
    ∃ w ∈ writes, w.sample.names key mac = true ∧ w.sample.tsUs = t := by
  obtain ⟨w, last, rfl⟩ := Option.map_eq_some_iff.mp seen
  obtain ⟨mem, named⟩ := List.mem_filter.mp (List.mem_of_getLast? last)
  exact ⟨w, mem, named, rfl⟩

/-- A device is last seen no earlier than at any reading that names it. -/
theorem le_lastSighting {writes : List NeighborWrite} {key mac : String} {w : NeighborWrite}
    (ordered : writes.Pairwise fun a b => a.sample.tsUs ≤ b.sample.tsUs) (mem : w ∈ writes)
    (named : w.sample.names key mac = true) :
    ∃ t, lastSighting writes key mac = some t ∧ w.sample.tsUs ≤ t := by
  induction writes using List.reverseRecOn with
  | nil => cases mem
  | append_singleton past last ih =>
    obtain ⟨before, -, atEnd⟩ := List.pairwise_append.mp ordered
    rw [lastSighting_snoc]
    by_cases again : last.sample.names key mac = true
    · rw [if_pos again]
      refine ⟨_, rfl, ?_⟩
      rcases List.mem_append.mp mem with old | new
      · exact atEnd w old last (List.mem_singleton_self last)
      · rw [List.mem_singleton.mp new]
    · rw [if_neg again]
      rcases List.mem_append.mp mem with old | new
      · exact ih before old
      · rw [List.mem_singleton.mp new] at named
        exact absurd named again

section View

variable {key : String} {writes : List NeighborWrite} {table : QueryTable}

/-- The rows of a segment that the view shows: those dated at the newest sighting in it. -/
theorem mem_view (answer : neighborsSql (some key) (writeNeighbors writes) = .ok table)
    (range : ∀ w ∈ writes, i64Min ≤ w.sample.tsUs ∧ w.sample.tsUs ≤ i64Max) {row : List String} :
    row ∈ table.keepLastRun.rows ↔
      ∃ r ∈ (writeNeighbors writes).neighbors, r.networkKey = key ∧ r.cells = row ∧
        ∀ s ∈ (writeNeighbors writes).neighbors, s.networkKey = key →
          s.lastSeenUs ≤ r.lastSeenUs := by
  unfold neighborsSql at answer
  dsimp only at answer
  split at answer
  next =>
    cases answer
    have told : ∀ r ∈ (((writeNeighbors writes).neighbors.filter fun r =>
        r.networkKey == key).mergeSort NeighborRow.newerFirst),
        QueryTable.lastSeen 8 r.cells = some r.lastSeenUs := by
      intro r listed
      have held := (List.mem_filter.mp (List.mem_mergeSort.mp listed)).1
      obtain ⟨w, mem, -, dated⟩ := lastSighting_eq_some (lastSighting_of_row held)
      obtain ⟨low, high⟩ := range w mem
      rw [dated] at low high
      exact parseI64_toString low high
    rw [QueryTable.keepLastRun_map NeighborRow.lastSeenUs (by decide) told]
    simp only [List.mem_mergeSort, List.mem_filter, beq_iff_eq, and_imp, and_assoc]
  next => cases answer

theorem cell_mac (answer : neighborsSql (some key) (writeNeighbors writes) = .ok table)
    (r : NeighborRow) : table.keepLastRun.cell "mac" r.cells = some r.mac := by
  have columns : table.keepLastRun.columns = neighborColumns := by
    have kept : table.keepLastRun.columns = table.columns := by
      unfold QueryTable.keepLastRun
      split
      · rfl
      · split <;> rfl
    rw [kept]
    unfold neighborsSql at answer
    dsimp only at answer
    split at answer
    · cases answer
      rfl
    · cases answer
  unfold QueryTable.cell
  rw [columns]
  rfl

/-- The newest rows of a segment are those of the devices a newest naming reading names. -/
theorem newest_row_iff (ordered : writes.Pairwise fun a b => a.sample.tsUs ≤ b.sample.tsUs)
    {r : NeighborRow} (held : r ∈ (writeNeighbors writes).neighbors)
    (inside : r.networkKey = key) :
    (∀ s ∈ (writeNeighbors writes).neighbors, s.networkKey = key → s.lastSeenUs ≤ r.lastSeenUs) ↔
      ∃ w, IsNewestNaming key writes w ∧ w.sample.names key r.mac = true := by
  have seen := lastSighting_of_row held
  rw [inside] at seen
  constructor
  · intro newest
    obtain ⟨w, mem, named, dated⟩ := lastSighting_eq_some seen
    refine ⟨w, ⟨mem, ⟨_, named⟩, ?_⟩, named⟩
    rintro other mem' ⟨mac, named'⟩
    obtain ⟨t, seen', later⟩ := le_lastSighting ordered mem' named'
    obtain ⟨s, held', same⟩ := row_of_lastSighting seen'
    obtain ⟨inside', rfl⟩ := Prod.mk.inj same
    have dated' := lastSighting_of_row held'
    rw [inside', seen'] at dated'
    have bound := newest s held' inside'
    have same_time := Option.some.inj dated'
    omega
  · rintro ⟨w, ⟨mem, -, newest⟩, named⟩ s held' inside'
    obtain ⟨t, seen', later⟩ := le_lastSighting ordered mem named
    rw [seen, Option.some.injEq] at seen'
    have dated := lastSighting_of_row held'
    rw [inside'] at dated
    obtain ⟨w', mem', named', dated'⟩ := lastSighting_eq_some dated
    have bound := newest w' mem' ⟨_, named'⟩
    omega

/-- The default view of a segment is its live roster exactly when every device of the newest tick
is named again at the newest instant at which any is, and the tick is not newer than that. -/
theorem live_roster_iff (ordered : writes.Pairwise fun a b => a.sample.tsUs ≤ b.sample.tsUs)
    (range : ∀ w ∈ writes, i64Min ≤ w.sample.tsUs ∧ w.sample.tsUs ≤ i64Max)
    (answer : neighborsSql (some key) (writeNeighbors writes) = .ok table) :
    LiveRoster key writes table.keepLastRun ↔ TickNamedLast key writes := by
  have cell : ∀ {r : NeighborRow} {mac : String},
      table.keepLastRun.cell "mac" r.cells = some mac → r.mac = mac :=
    fun named => Option.some.inj ((cell_mac answer _).symm.trans named)
  have shown : ∀ {r : NeighborRow}, r ∈ (writeNeighbors writes).neighbors → r.networkKey = key →
      (∃ w, IsNewestNaming key writes w ∧ w.sample.names key r.mac = true) →
      r.cells ∈ table.keepLastRun.rows :=
    fun held inside newest =>
      (mem_view answer range).mpr ⟨_, held, inside, rfl, (newest_row_iff ordered held inside).mpr newest⟩
  constructor
  · intro live tick newest
    obtain ⟨whole, fresh⟩ := live tick newest
    constructor
    · intro nb listed
      obtain ⟨row, inView, named⟩ := whole nb listed
      obtain ⟨r, held, inside, rfl, most⟩ := (mem_view answer range).mp inView
      rw [← cell named]
      exact (newest_row_iff ordered held inside).mp most
    · intro w naming
      obtain ⟨mem, ⟨mac, named⟩, most⟩ := id naming
      obtain ⟨t, seen, -⟩ := le_lastSighting ordered mem named
      obtain ⟨r, held, same⟩ := row_of_lastSighting seen
      obtain ⟨inside, rfl⟩ := Prod.mk.inj same
      have inView := shown held inside ⟨w, naming, named⟩
      have after := fresh _ inView r.mac (cell_mac answer r) t seen
      obtain ⟨w', mem', named', rfl⟩ := lastSighting_eq_some seen
      exact Int.le_trans after (most w' mem' ⟨_, named'⟩)
  · intro last tick newest
    obtain ⟨whole, fresh⟩ := last tick newest
    constructor
    · intro nb listed
      obtain ⟨w, naming, named⟩ := whole nb listed
      obtain ⟨t, seen, -⟩ := le_lastSighting ordered naming.1 named
      obtain ⟨r, held, same⟩ := row_of_lastSighting seen
      obtain ⟨inside, mac⟩ := Prod.mk.inj same
      rw [← mac] at named
      exact ⟨r.cells, shown held inside ⟨w, naming, named⟩, by rw [cell_mac answer, mac]⟩
    · intro row inView mac named t seen
      obtain ⟨r, held, inside, rfl, most⟩ := (mem_view answer range).mp inView
      obtain rfl := cell named
      obtain ⟨w, naming, names⟩ := (newest_row_iff ordered held inside).mp most
      obtain ⟨t', seen', later⟩ := le_lastSighting ordered naming.1 names
      rw [seen, Option.some.injEq] at seen'
      have before := fresh w naming
      omega

end View

def sighting (tsUs : Int) (macs : List String) : NeighborsSample where
  tsUs := tsUs
  verdict := .ok
  reason := none
  networkKey := none
  iface := some "en0"
  neighbors := macs.map fun mac => ⟨mac, "192.168.1.5", .arp, none, .unknown⟩
  services := []
  heard := none

/-- A tick of two devices, and a flush that heard the first of them again. -/
def flushAfterTick : List NeighborWrite :=
  [⟨.cacheTick, sighting 10 ["a4:83:e7:1b:2c:3d", "a4:83:e7:1b:2c:3e"]⟩,
    ⟨.announceFlush, sighting 20 ["a4:83:e7:1b:2c:3d"]⟩]

theorem roster_loses_quiet_device :
    ∃ table, neighborsSql (some "unknown") (writeNeighbors flushAfterTick) = .ok table ∧
      ¬ LiveRoster "unknown" flushAfterTick table.keepLastRun := by
  obtain ⟨table, answer⟩ : ∃ table,
      neighborsSql (some "unknown") (writeNeighbors flushAfterTick) = .ok table := ⟨_, rfl⟩
  refine ⟨table, answer, fun live => ?_⟩
  obtain ⟨row, inView, named⟩ := (live _ rfl).1
    ⟨"a4:83:e7:1b:2c:3e", "192.168.1.5", .arp, none, .unknown⟩ (by simp [sighting])
  obtain ⟨r, held, inside, rfl, most⟩ := (mem_view answer (by decide)).mp inView
  have mac := Option.some.inj ((cell_mac answer r).symm.trans named)
  obtain ⟨w, ⟨mem, -, newest⟩, names⟩ := (newest_row_iff (by decide) held inside).mp most
  have later := newest _ (List.mem_cons_of_mem _ (List.mem_singleton_self _))
    ⟨"a4:83:e7:1b:2c:3d", by decide⟩
  rw [mac] at names
  rcases List.mem_cons.mp mem with rfl | last
  · revert later
    decide
  · rw [List.mem_singleton.mp last] at names
    revert names
    decide

/-- The flush hears both. -/
theorem live_roster_iff_bothHeard :
    ∃ table, neighborsSql (some "unknown") (writeNeighbors
        [⟨.cacheTick, sighting 10 ["a4:83:e7:1b:2c:3d", "a4:83:e7:1b:2c:3e"]⟩,
          ⟨.announceFlush, sighting 20 ["a4:83:e7:1b:2c:3d", "a4:83:e7:1b:2c:3e"]⟩]) = .ok table ∧
      LiveRoster "unknown"
        [⟨.cacheTick, sighting 10 ["a4:83:e7:1b:2c:3d", "a4:83:e7:1b:2c:3e"]⟩,
          ⟨.announceFlush, sighting 20 ["a4:83:e7:1b:2c:3d", "a4:83:e7:1b:2c:3e"]⟩]
        table.keepLastRun := by
  refine ⟨_, rfl, (live_roster_iff (by decide) (by decide) rfl).mpr ?_⟩
  intro tick newest
  cases newest
  refine ⟨fun nb listed => ⟨_, ⟨List.mem_cons_of_mem _ (List.mem_singleton_self _), ?_, ?_⟩, ?_⟩, ?_⟩
  · exact ⟨"a4:83:e7:1b:2c:3d", by decide⟩
  · rintro other mem -
    revert other
    decide
  · revert nb
    simp [sighting, NeighborsSample.names, NeighborsSample.segment, unknownNetwork]
  · rintro w ⟨-, -, newest⟩
    refine Int.le_trans ?_ (newest _ (List.mem_cons_self ..) ⟨"a4:83:e7:1b:2c:3d", by decide⟩)
    decide

end NetObserver
