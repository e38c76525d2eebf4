import NetObserver.NeighborRoster
import NetObserver.OperatorScans

/-! The entity tables of the store, and the upserts that write to them. -/

namespace NetObserver

structure NeighborPortRow where
  networkKey : String
  mac : String
  ip : String
  port : Nat
  firstSeenUs : Int
  lastSeenUs : Int
  banner : Option String

structure NeighborVulnRow where
  networkKey : String
  mac : String
  port : Nat
  cveId : String
  confidence : String
  knownExploited : Bool
  cvss : Option Machine.F64
  firstSeenUs : Int
  lastSeenUs : Int

structure TopologyLinkRow where
  iface : String
  remoteChassis : String
  remotePort : String
  remoteSystemName : Option String
  capabilities : String
  learnedVia : LearnedVia
  firstSeenUs : Int
  lastSeenUs : Int

def NeighborPort.row (p : NeighborPort) : NeighborPortRow :=
  ⟨p.networkKey.getD unknownNetwork, p.mac, p.ip, p.port, p.tsUs, p.tsUs, p.banner⟩

def NeighborVuln.row (v : NeighborVuln) : NeighborVulnRow :=
  ⟨v.networkKey.getD unknownNetwork, v.mac, v.port, v.cveId, v.confidence, v.knownExploited,
    v.cvss, v.tsUs, v.tsUs⟩

def TopologyLink.row (l : TopologyLink) : TopologyLinkRow :=
  ⟨l.iface, l.remoteChassis, l.remotePort, l.remoteSystemName, l.capabilities, l.learnedVia,
    l.tsUs, l.tsUs⟩

def NeighborPortRow.key (r : NeighborPortRow) : String × String × Nat :=
  (r.networkKey, r.mac, r.port)

/-- A run that grabbed no banner keeps the one an earlier run learned. -/
def NeighborPortRow.merge (old new : NeighborPortRow) : NeighborPortRow :=
  { old with
    ip := new.ip
    lastSeenUs := new.lastSeenUs
    banner := new.banner.or old.banner }

def NeighborVulnRow.key (r : NeighborVulnRow) : String × String × Nat × String :=
  (r.networkKey, r.mac, r.port, r.cveId)

def NeighborVulnRow.merge (old new : NeighborVulnRow) : NeighborVulnRow :=
  { old with
    confidence := new.confidence
    knownExploited := new.knownExploited
    cvss := new.cvss
    lastSeenUs := new.lastSeenUs }

namespace TopologyLinkRow

def key (r : TopologyLinkRow) : String × String × String :=
  (r.iface, r.remoteChassis, r.remotePort)

/-- `NULLIF(capabilities, '')`. -/
def knownCapabilities (r : TopologyLinkRow) : Option String :=
  if r.capabilities = "" then none else some r.capabilities

def merge (old new : TopologyLinkRow) : TopologyLinkRow :=
  { old with
    remoteSystemName := new.remoteSystemName.or old.remoteSystemName
    capabilities := new.knownCapabilities.getD old.capabilities
    learnedVia := new.learnedVia
    lastSeenUs := new.lastSeenUs }

theorem knownCapabilities_merge (old new : TopologyLinkRow) :
    (old.merge new).knownCapabilities = new.knownCapabilities.or old.knownCapabilities := by
  unfold knownCapabilities merge knownCapabilities
  by_cases empty : new.capabilities = ""
  · simp [empty]
  · simp [empty]

end TopologyLinkRow

def neighborPortTable : Lifetimes NeighborPortRow (String × String × Nat) where
  key := NeighborPortRow.key
  merge := NeighborPortRow.merge
  first := NeighborPortRow.firstSeenUs
  last := NeighborPortRow.lastSeenUs
  key_merge _ _ := rfl
  first_merge _ _ := rfl
  last_merge _ _ := rfl

def neighborVulnTable : Lifetimes NeighborVulnRow (String × String × Nat × String) where
  key := NeighborVulnRow.key
  merge := NeighborVulnRow.merge
  first := NeighborVulnRow.firstSeenUs
  last := NeighborVulnRow.lastSeenUs
  key_merge _ _ := rfl
  first_merge _ _ := rfl
  last_merge _ _ := rfl

def topologyLinkTable : Lifetimes TopologyLinkRow (String × String × String) where
  key := TopologyLinkRow.key
  merge := TopologyLinkRow.merge
  first := TopologyLinkRow.firstSeenUs
  last := TopologyLinkRow.lastSeenUs
  key_merge _ _ := rfl
  first_merge _ _ := rfl
  last_merge _ _ := rfl

structure EntityTables where
  neighbor : NeighborTables
  neighborPort : List NeighborPortRow
  neighborVuln : List NeighborVulnRow
  topologyLink : List TopologyLinkRow

def EntityTables.empty : EntityTables := ⟨.empty, [], [], []⟩

/-- A call of the store that writes entities; a reading brings its neighbours and services. -/
inductive EntityWrite where
  | sample (n : NeighborsSample)
  | neighborPort (p : NeighborPort)
  | neighborVuln (v : NeighborVuln)
  | topologyLink (l : TopologyLink)

def writeNeighborPort (rows : List NeighborPortRow) (p : NeighborPort) : List NeighborPortRow :=
  Keyed.upsert NeighborPortRow.key NeighborPortRow.merge rows p.row

def writeNeighborVuln (rows : List NeighborVulnRow) (v : NeighborVuln) : List NeighborVulnRow :=
  Keyed.upsert NeighborVulnRow.key NeighborVulnRow.merge rows v.row

def writeTopologyLink (rows : List TopologyLinkRow) (l : TopologyLink) : List TopologyLinkRow :=
  Keyed.upsert TopologyLinkRow.key TopologyLinkRow.merge rows l.row

def EntityTables.write (t : EntityTables) : EntityWrite → EntityTables
  | .sample n => { t with neighbor := n.write t.neighbor }
  | .neighborPort p => { t with neighborPort := writeNeighborPort t.neighborPort p }
  | .neighborVuln v => { t with neighborVuln := writeNeighborVuln t.neighborVuln v }
  | .topologyLink l => { t with topologyLink := writeTopologyLink t.topologyLink l }

def writeEntities (writes : List EntityWrite) : EntityTables :=
  writes.foldl EntityTables.write .empty

namespace EntityWrite

/-- The rows a call brings to each table. -/
def neighborRows : EntityWrite → List NeighborRow
  | sample n => n.neighbors.map n.neighborRow
  | _ => []

def serviceRows : EntityWrite → List NeighborServiceRow
  | sample n => n.services.map n.serviceRow
  | _ => []

def portRows : EntityWrite → List NeighborPortRow
  | neighborPort p => [p.row]
  | _ => []

def vulnRows : EntityWrite → List NeighborVulnRow
  | neighborVuln v => [v.row]
  | _ => []

def linkRows : EntityWrite → List TopologyLinkRow
  | topologyLink l => [l.row]
  | _ => []

end EntityWrite

namespace EntityTables

variable (t : EntityTables) (w : EntityWrite)

theorem write_neighbors : (t.write w).neighbor.neighbors =
    neighborTable.writes t.neighbor.neighbors w.neighborRows := by
  cases w <;> rfl

theorem write_services : (t.write w).neighbor.services =
    neighborServiceTable.writes t.neighbor.services w.serviceRows := by
  cases w <;> rfl

theorem write_neighborPort : (t.write w).neighborPort =
    neighborPortTable.writes t.neighborPort w.portRows := by
  cases w <;> rfl

theorem write_neighborVuln : (t.write w).neighborVuln =
    neighborVulnTable.writes t.neighborVuln w.vulnRows := by
  cases w <;> rfl

theorem write_topologyLink : (t.write w).topologyLink =
    topologyLinkTable.writes t.topologyLink w.linkRows := by
  cases w <;> rfl

end EntityTables

end NetObserver
