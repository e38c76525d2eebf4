import NetObserver.EntityStore

/-! What the entity tables say after any sequence of writes: one row for each key, its facts, and
its first and last sighting. -/

namespace NetObserver

namespace EntityTables

/-- Each table has one row for each key written to it. -/
structure OneRowEach (writes : List EntityWrite) (t : EntityTables) : Prop where
  neighbor : neighborTable.OneRowPerKey (writes.flatMap EntityWrite.neighborRows)
    t.neighbor.neighbors
  service : neighborServiceTable.OneRowPerKey (writes.flatMap EntityWrite.serviceRows)
    t.neighbor.services
  port : neighborPortTable.OneRowPerKey (writes.flatMap EntityWrite.portRows) t.neighborPort
  vuln : neighborVulnTable.OneRowPerKey (writes.flatMap EntityWrite.vulnRows) t.neighborVuln
  link : topologyLinkTable.OneRowPerKey (writes.flatMap EntityWrite.linkRows) t.topologyLink

/-- Each optional fact is the last that was written for its key; of capabilities, the last set that
is not empty. -/
structure LastFacts (writes : List EntityWrite) (t : EntityTables) : Prop where
  hostname : neighborTable.Coalesced NeighborRow.hostname
    (writes.flatMap EntityWrite.neighborRows) t.neighbor.neighbors
  serviceIp : neighborServiceTable.Coalesced NeighborServiceRow.ip
    (writes.flatMap EntityWrite.serviceRows) t.neighbor.services
  serviceDetail : neighborServiceTable.Coalesced NeighborServiceRow.detail
    (writes.flatMap EntityWrite.serviceRows) t.neighbor.services
  banner : neighborPortTable.Coalesced NeighborPortRow.banner
    (writes.flatMap EntityWrite.portRows) t.neighborPort
  remoteSystemName : topologyLinkTable.Coalesced TopologyLinkRow.remoteSystemName
    (writes.flatMap EntityWrite.linkRows) t.topologyLink
  capabilities : topologyLinkTable.Coalesced TopologyLinkRow.knownCapabilities
    (writes.flatMap EntityWrite.linkRows) t.topologyLink

/-- Each row is first seen at the least and last seen at the greatest instant written for it. -/
structure TrueSightings (writes : List EntityWrite) (t : EntityTables) : Prop where
  neighbor : neighborTable.TrueBounds (writes.flatMap EntityWrite.neighborRows)
    t.neighbor.neighbors
  service : neighborServiceTable.TrueBounds (writes.flatMap EntityWrite.serviceRows)
    t.neighbor.services
  port : neighborPortTable.TrueBounds (writes.flatMap EntityWrite.portRows) t.neighborPort
  vuln : neighborVulnTable.TrueBounds (writes.flatMap EntityWrite.vulnRows) t.neighborVuln
  link : topologyLinkTable.TrueBounds (writes.flatMap EntityWrite.linkRows) t.topologyLink

/-- A write leaves every row alone whose key it does not bring to that table. -/
structure Untouched (t : EntityTables) (w : EntityWrite) : Prop where
  neighbor : ∀ k, (∀ r ∈ w.neighborRows, r.key ≠ k) →
    Keyed.rowOf NeighborRow.key (t.write w).neighbor.neighbors k =
      Keyed.rowOf NeighborRow.key t.neighbor.neighbors k
  service : ∀ k, (∀ r ∈ w.serviceRows, r.key ≠ k) →
    Keyed.rowOf NeighborServiceRow.key (t.write w).neighbor.services k =
      Keyed.rowOf NeighborServiceRow.key t.neighbor.services k
  port : ∀ k, (∀ r ∈ w.portRows, r.key ≠ k) →
    Keyed.rowOf NeighborPortRow.key (t.write w).neighborPort k =
      Keyed.rowOf NeighborPortRow.key t.neighborPort k
  vuln : ∀ k, (∀ r ∈ w.vulnRows, r.key ≠ k) →
    Keyed.rowOf NeighborVulnRow.key (t.write w).neighborVuln k =
      Keyed.rowOf NeighborVulnRow.key t.neighborVuln k
  link : ∀ k, (∀ r ∈ w.linkRows, r.key ≠ k) →
    Keyed.rowOf TopologyLinkRow.key (t.write w).topologyLink k =
      Keyed.rowOf TopologyLinkRow.key t.topologyLink k

end EntityTables

/-- Of the writes of each key in each table the first is stamped least and the last greatest. -/
structure WrittenInOrder (writes : List EntityWrite) : Prop where
  neighbor : neighborTable.InOrder (writes.flatMap EntityWrite.neighborRows)
  service : neighborServiceTable.InOrder (writes.flatMap EntityWrite.serviceRows)
  port : neighborPortTable.InOrder (writes.flatMap EntityWrite.portRows)
  vuln : neighborVulnTable.InOrder (writes.flatMap EntityWrite.vulnRows)
  link : topologyLinkTable.InOrder (writes.flatMap EntityWrite.linkRows)

section

variable (writes : List EntityWrite)

theorem writeEntities_neighbors : (writeEntities writes).neighbor.neighbors =
    neighborTable.writes [] (writes.flatMap EntityWrite.neighborRows) :=
  Lifetimes.foldl_writes (fun t : EntityTables => t.neighbor.neighbors)
    EntityTables.write_neighbors writes .empty

theorem writeEntities_services : (writeEntities writes).neighbor.services =
    neighborServiceTable.writes [] (writes.flatMap EntityWrite.serviceRows) :=
  Lifetimes.foldl_writes (fun t : EntityTables => t.neighbor.services)
    EntityTables.write_services writes .empty

theorem writeEntities_neighborPort : (writeEntities writes).neighborPort =
    neighborPortTable.writes [] (writes.flatMap EntityWrite.portRows) :=
  Lifetimes.foldl_writes EntityTables.neighborPort EntityTables.write_neighborPort writes .empty

theorem writeEntities_neighborVuln : (writeEntities writes).neighborVuln =
    neighborVulnTable.writes [] (writes.flatMap EntityWrite.vulnRows) :=
  Lifetimes.foldl_writes EntityTables.neighborVuln EntityTables.write_neighborVuln writes .empty

theorem writeEntities_topologyLink : (writeEntities writes).topologyLink =
    topologyLinkTable.writes [] (writes.flatMap EntityWrite.linkRows) :=
  Lifetimes.foldl_writes EntityTables.topologyLink EntityTables.write_topologyLink writes .empty

theorem writeEntities_oneRowEach :
    EntityTables.OneRowEach writes (writeEntities writes) := by
  constructor
  case neighbor => rw [writeEntities_neighbors]; exact Lifetimes.oneRowPerKey _
  case service => rw [writeEntities_services]; exact Lifetimes.oneRowPerKey _
  case port => rw [writeEntities_neighborPort]; exact Lifetimes.oneRowPerKey _
  case vuln => rw [writeEntities_neighborVuln]; exact Lifetimes.oneRowPerKey _
  case link => rw [writeEntities_topologyLink]; exact Lifetimes.oneRowPerKey _

theorem writeEntities_lastFacts : EntityTables.LastFacts writes (writeEntities writes) := by
  constructor
  case hostname =>
    rw [writeEntities_neighbors]
    exact Lifetimes.coalesced (fun _ _ => rfl) _
  case serviceIp =>
    rw [writeEntities_services]
    exact Lifetimes.coalesced (fun _ _ => rfl) _
  case serviceDetail =>
    rw [writeEntities_services]
    exact Lifetimes.coalesced (fun _ _ => rfl) _
  case banner =>
    rw [writeEntities_neighborPort]
    exact Lifetimes.coalesced (fun _ _ => rfl) _
  case remoteSystemName =>
    rw [writeEntities_topologyLink]
    exact Lifetimes.coalesced (fun _ _ => rfl) _
  case capabilities =>
    rw [writeEntities_topologyLink]
    exact Lifetimes.coalesced TopologyLinkRow.knownCapabilities_merge _

theorem write_untouched (t : EntityTables) (w : EntityWrite) : t.Untouched w := by
  constructor
  case neighbor =>
    intro k apart
    rw [EntityTables.write_neighbors]
    exact Lifetimes.rowOf_writes_other (T := neighborTable) apart
  case service =>
    intro k apart
    rw [EntityTables.write_services]
    exact Lifetimes.rowOf_writes_other (T := neighborServiceTable) apart
  case port =>
    intro k apart
    rw [EntityTables.write_neighborPort]
    exact Lifetimes.rowOf_writes_other (T := neighborPortTable) apart
  case vuln =>
    intro k apart
    rw [EntityTables.write_neighborVuln]
    exact Lifetimes.rowOf_writes_other (T := neighborVulnTable) apart
  case link =>
    intro k apart
    rw [EntityTables.write_topologyLink]
    exact Lifetimes.rowOf_writes_other (T := topologyLinkTable) apart

theorem trueSightings_iff :
    EntityTables.TrueSightings writes (writeEntities writes) ↔ WrittenInOrder writes := by
  constructor
  · rintro ⟨neighbor, service, port, vuln, link⟩
    rw [writeEntities_neighbors] at neighbor
    rw [writeEntities_services] at service
    rw [writeEntities_neighborPort] at port
    rw [writeEntities_neighborVuln] at vuln
    rw [writeEntities_topologyLink] at link
    exact ⟨(Lifetimes.trueBounds_iff _).mp neighbor, (Lifetimes.trueBounds_iff _).mp service,
      (Lifetimes.trueBounds_iff _).mp port, (Lifetimes.trueBounds_iff _).mp vuln,
      (Lifetimes.trueBounds_iff _).mp link⟩
  · intro order
    constructor
    case neighbor =>
      rw [writeEntities_neighbors]
      exact (Lifetimes.trueBounds_iff _).mpr order.neighbor
    case service =>
      rw [writeEntities_services]
      exact (Lifetimes.trueBounds_iff _).mpr order.service
    case port =>
      rw [writeEntities_neighborPort]
      exact (Lifetimes.trueBounds_iff _).mpr order.port
    case vuln =>
      rw [writeEntities_neighborVuln]
      exact (Lifetimes.trueBounds_iff _).mpr order.vuln
    case link =>
      rw [writeEntities_topologyLink]
      exact (Lifetimes.trueBounds_iff _).mpr order.link

theorem entity_rows_keep_sightings_iff :
    EntityTables.OneRowEach writes (writeEntities writes) ∧
      EntityTables.LastFacts writes (writeEntities writes) ∧
      (∀ (t : EntityTables) (w : EntityWrite), t.Untouched w) ∧
      (EntityTables.TrueSightings writes (writeEntities writes) ↔ WrittenInOrder writes) :=
  ⟨writeEntities_oneRowEach writes, writeEntities_lastFacts writes, write_untouched,
    trueSightings_iff writes⟩

end

/-- A scan stamped 20 is written, and behind it the tick over the caches that was read at 10. -/
def tickBehindScan : List EntityWrite :=
  [.sample (sighting 20 ["3c:22:fb:00:00:01"]), .sample (sighting 10 ["3c:22:fb:00:00:01"])]

theorem sightings_out_of_order :
    ¬ EntityTables.TrueSightings tickBehindScan (writeEntities tickBehindScan) := by
  intro sightings
  have held : ∃ r ∈ (writeEntities tickBehindScan).neighbor.neighbors,
      r.firstSeenUs = 20 ∧ ∃ w ∈ tickBehindScan.flatMap EntityWrite.neighborRows,
        w.key = r.key ∧ w.firstSeenUs = 10 :=
    ⟨_, List.mem_cons_self .., rfl, _, List.mem_cons_of_mem _ (List.mem_cons_self ..), rfl, rfl⟩
  obtain ⟨r, mem, first, w, written, same, stamp⟩ := held
  have least : (r.firstSeenUs : Int) ≤ 10 :=
    (sightings.neighbor.first r mem).2 ⟨w, written, same, stamp⟩
  omega

end NetObserver
