import NetObserver.CdpGrammar
import NetObserver.EntityStore

/-! A topology capture: what it writes to the record, and the uplinks it shows on the snapshot. -/

namespace NetObserver

open LastSome

/-- How long an uplink has been on record. -/
structure TopologyLifetime where
  iface : String
  remoteChassis : String
  remotePort : String
  firstSeenUs : Int
  lastSeenUs : Int

def TopologyLifetime.bounds (lt : TopologyLifetime) (link : TopologyLink) : Bool :=
  lt.iface == link.iface && lt.remoteChassis == link.remoteChassis &&
    lt.remotePort == link.remotePort

/-- The uplinks of the status snapshot. -/
structure TopologySnapshot where
  topology : List TopologyLink
  topologyLifetimes : List TopologyLifetime

def topologyLifetimes (rows : List TopologyLinkRow) : List TopologyLifetime :=
  rows.map fun r => ⟨r.iface, r.remoteChassis, r.remotePort, r.firstSeenUs, r.lastSeenUs⟩

structure TopologyCapture where
  latest : List TopologyLink
  rows : List TopologyLinkRow

/-- One captured frame. A write the store does not take is dropped; the link is shown all the
same. -/
def TopologyCapture.frame (iface : String) (now : Int) (c : TopologyCapture) (frame : List UInt8)
    (taken : Bool) : TopologyCapture :=
  match linkFromFrame frame iface now with
  | none => c
  | some link =>
    { latest := if c.latest.any fun l => l.sameKey link then c.latest else c.latest ++ [link]
      rows := if taken then writeTopologyLink c.rows link else c.rows }

structure TopologyRun where
  latest : List TopologyLink
  rows : List TopologyLinkRow
  snapshot : TopologySnapshot

/-- The frames of a capture, each with whether the store took its write; `read` says whether the
lifetimes could be read back. A capture that maps no link leaves the snapshot as it is. -/
def runTopologyCapture (frames : List (List UInt8 × Bool)) (read : Bool) (iface : String)
    (now : Int) (rows : List TopologyLinkRow) (snapshot : TopologySnapshot) : TopologyRun :=
  let c := frames.foldl (fun c f => c.frame iface now f.1 f.2) (⟨[], rows⟩ : TopologyCapture)
  { latest := c.latest
    rows := c.rows
    snapshot :=
      if c.latest.isEmpty then snapshot
      else
        { topology := c.latest
          topologyLifetimes :=
            if read then (topologyLifetimes c.rows).filter fun lt => c.latest.any lt.bounds
            else [] } }

def TopologyLink.key (l : TopologyLink) : String × String × String :=
  (l.iface, l.remoteChassis, l.remotePort)

def TopologyLink.knownCapabilities (l : TopologyLink) : Option String :=
  if l.capabilities = "" then none else some l.capabilities

/-- The links that a capture's frames map to, in their order. -/
def announcedLinks (frames : List (List UInt8)) (iface : String) (now : Int) : List TopologyLink :=
  frames.filterMap fun frame => linkFromFrame frame iface now

/-- A capture with the store up. -/
def storedTopologyCapture (frames : List (List UInt8)) (iface : String) (now : Int)
    (rows : List TopologyLinkRow) (snapshot : TopologySnapshot) : TopologyRun :=
  runTopologyCapture (frames.map fun frame => (frame, true)) true iface now rows snapshot

theorem TopologyLink.sameKey_iff {l m : TopologyLink} : l.sameKey m = true ↔ l.key = m.key := by
  simp [TopologyLink.sameKey, TopologyLink.key, and_assoc]

theorem bounds_iff {lt : TopologyLifetime} {l : TopologyLink} :
    lt.bounds l = true ↔ (lt.iface, lt.remoteChassis, lt.remotePort) = l.key := by
  simp [TopologyLifetime.bounds, TopologyLink.key, and_assoc]

/-- Keeping the first link of each key is an upsert that changes nothing. -/
theorem keepFirst_eq (latest : List TopologyLink) (link : TopologyLink) :
    (if latest.any fun l => l.sameKey link then latest else latest ++ [link]) =
      Keyed.upsert TopologyLink.key (fun old _ => old) latest link := by
  unfold Keyed.upsert
  have test : (latest.any fun l => l.sameKey link) =
      latest.any fun l => decide (l.key = link.key) := by
    congr 1
    funext l
    exact Bool.eq_iff_iff.mpr (TopologyLink.sameKey_iff.trans decide_eq_true_iff.symm)
  rw [test]
  split
  · simp
  · rfl

theorem latestLinks_eq (links : List TopologyLink) :
    latestLinks links = links.foldl (Keyed.upsert TopologyLink.key fun old _ => old) [] := by
  unfold latestLinks
  simp only [keepFirst_eq]

section

variable {links : List TopologyLink} {l : TopologyLink} {k : String × String × String}

theorem latestLinks_nodup (links : List TopologyLink) :
    ((latestLinks links).map TopologyLink.key).Nodup := by
  rw [latestLinks_eq]
  have fresh : (([] : List TopologyLink).map TopologyLink.key).Nodup := List.nodup_nil
  exact Keyed.foldl_upsert_keys_nodup (fun _ _ same => same) fresh links

theorem foldl_keepFirst (group : List TopologyLink) (found : Option TopologyLink) :
    group.foldl (fun found new => some (found.elim new fun old => old)) found =
      found.or group.head? := by
  induction group generalizing found with
  | nil => exact (Option.or_none).symm
  | cons first rest ih =>
    rw [List.foldl_cons, ih]
    cases found <;> rfl

/-- The shown link of a key is the first that was announced. -/
theorem rowOf_latestLinks (links : List TopologyLink) (k : String × String × String) :
    Keyed.rowOf TopologyLink.key (latestLinks links) k =
      (links.filter fun l => l.key = k).head? := by
  rw [latestLinks_eq, Keyed.rowOf_foldl_upsert (fun _ _ same => same), foldl_keepFirst]
  rfl

theorem mem_latestLinks :
    l ∈ latestLinks links ↔ (links.filter fun m => m.key = l.key).head? = some l := by
  rw [← rowOf_latestLinks]
  constructor
  · intro mem
    exact Keyed.rowOf_of_mem (latestLinks_nodup links) mem
  · intro found
    exact (Keyed.rowOf_key found).1

theorem exists_last_of_shown (mem : l ∈ latestLinks links) :
    ∃ last, (links.filter fun m => m.key = l.key).getLast? = some last := by
  have first := mem_latestLinks.mp mem
  have some_ : (links.filter fun m => m.key = l.key) ≠ [] := by
    intro none_
    rw [none_] at first
    cases first
  exact ⟨_, List.getLast?_eq_some_getLast some_⟩

theorem latestLinks_keys (links : List TopologyLink) (k : String × String × String) :
    (∃ l ∈ latestLinks links, l.key = k) ↔ ∃ l ∈ links, l.key = k := by
  constructor
  · rintro ⟨l, mem, rfl⟩
    have held := List.mem_of_mem_head? (mem_latestLinks.mp mem)
    exact ⟨l, (List.mem_filter.mp held).1, rfl⟩
  · rintro ⟨l, mem, rfl⟩
    have held : l ∈ links.filter fun m => m.key = l.key := List.mem_filter.mpr ⟨mem, by simp⟩
    cases first : (links.filter fun m => m.key = l.key).head? with
    | none =>
      rw [List.head?_eq_none_iff.mp first] at held
      cases held
    | some m =>
      have same : m.key = l.key := by
        simpa using (List.mem_filter.mp (List.mem_of_mem_head? first)).2
      refine ⟨m, mem_latestLinks.mpr ?_, same⟩
      rw [same]
      exact first

theorem group_rows (links : List TopologyLink) (k : String × String × String) :
    topologyLinkTable.group (links.map TopologyLink.row) k =
      (links.filter fun l => l.key = k).map TopologyLink.row := by
  unfold Lifetimes.group
  rw [List.filter_map]
  rfl

/-- A capture with the store up shows the first and writes all of the links it maps. -/
theorem foldl_frame (frames : List (List UInt8)) (iface : String) (now : Int)
    (c : TopologyCapture) :
    (frames.map fun frame => (frame, true)).foldl (fun c f => c.frame iface now f.1 f.2) c =
      { latest := (announcedLinks frames iface now).foldl
          (fun latest link =>
            if latest.any fun l => l.sameKey link then latest else latest ++ [link]) c.latest
        rows := topologyLinkTable.writes c.rows
          ((announcedLinks frames iface now).map TopologyLink.row) } := by
  induction frames generalizing c with
  | nil => rfl
  | cons frame frames ih =>
    rw [List.map_cons, List.foldl_cons, ih, TopologyCapture.frame]
    unfold announcedLinks
    rw [List.filterMap_cons]
    cases linkFromFrame frame iface now with
    | none => rfl
    | some link => rfl

theorem storedTopologyCapture_latest (frames : List (List UInt8)) (iface : String) (now : Int)
    (rows : List TopologyLinkRow) (snapshot : TopologySnapshot) :
    (storedTopologyCapture frames iface now rows snapshot).latest =
      latestLinks (announcedLinks frames iface now) := by
  unfold storedTopologyCapture runTopologyCapture
  dsimp only
  rw [foldl_frame]
  rfl

theorem storedTopologyCapture_rows (frames : List (List UInt8)) (iface : String) (now : Int)
    (rows : List TopologyLinkRow) (snapshot : TopologySnapshot) :
    (storedTopologyCapture frames iface now rows snapshot).rows =
      topologyLinkTable.writes rows
        ((announcedLinks frames iface now).map TopologyLink.row) := by
  unfold storedTopologyCapture runTopologyCapture
  dsimp only
  rw [foldl_frame]

theorem latestLinks_eq_nil : latestLinks links = [] ↔ links = [] := by
  constructor
  · intro none_
    refine List.eq_nil_iff_forall_not_mem.mpr fun l mem => ?_
    obtain ⟨m, held, _⟩ := (latestLinks_keys links l.key).mpr ⟨l, mem, rfl⟩
    rw [none_] at held
    cases held
  · rintro rfl
    rfl

end

/-- The shown links carry the name, the capabilities and the protocol of their stored rows. -/
def AgreesWithRecord (shown : List TopologyLink) (rows : List TopologyLinkRow) : Prop :=
  ∀ l ∈ shown, ∃ r, Keyed.rowOf TopologyLinkRow.key rows l.key = some r ∧
    r.remoteSystemName = l.remoteSystemName ∧ r.capabilities = l.capabilities ∧
      r.learnedVia = l.learnedVia

/-- Of the links announced under a key the first says what the record will say: the last name, the
last capabilities that are not empty, each from the earlier row where none is announced, and the
last protocol. -/
def FirstSaysAll (links : List TopologyLink) (rows : List TopologyLinkRow) : Prop :=
  ∀ k first last, (links.filter fun l => l.key = k).head? = some first →
    (links.filter fun l => l.key = k).getLast? = some last →
      first.remoteSystemName =
          (lastSome? TopologyLink.remoteSystemName (links.filter fun l => l.key = k)).or
            ((Keyed.rowOf TopologyLinkRow.key rows k).bind TopologyLinkRow.remoteSystemName) ∧
        first.knownCapabilities =
          (lastSome? TopologyLink.knownCapabilities (links.filter fun l => l.key = k)).or
            ((Keyed.rowOf TopologyLinkRow.key rows k).bind TopologyLinkRow.knownCapabilities) ∧
        first.learnedVia = last.learnedVia

/-- What a capture shows, whatever its frames say. -/
structure ShowsCapture (links : List TopologyLink) (snapshot : TopologySnapshot)
    (run : TopologyRun) : Prop where
  quiet : links = [] → run.latest = [] ∧ run.snapshot = snapshot
  shown : links ≠ [] → run.snapshot.topology = run.latest
  distinct : (run.latest.map TopologyLink.key).Nodup
  keys : ∀ k, (∃ l ∈ run.latest, l.key = k) ↔ ∃ l ∈ links, l.key = k
  lifetimes : ∀ l ∈ run.latest, ∃ r, Keyed.rowOf TopologyLinkRow.key run.rows l.key = some r ∧
    ∃ lt ∈ run.snapshot.topologyLifetimes, lt.bounds l = true ∧
      lt.firstSeenUs = r.firstSeenUs ∧ lt.lastSeenUs = r.lastSeenUs

section

variable {links : List TopologyLink} {rows : List TopologyLinkRow} {l last : TopologyLink}

/-- The stored row of an announced key, read off the announcements and the earlier row. -/
theorem stored_row (rows : List TopologyLinkRow) {k : String × String × String}
    (tail : (links.filter fun l => l.key = k).getLast? = some last) :
    ∃ r, Keyed.rowOf TopologyLinkRow.key
        (topologyLinkTable.writes rows (links.map TopologyLink.row)) k = some r ∧
      r.remoteSystemName =
        (lastSome? TopologyLink.remoteSystemName (links.filter fun l => l.key = k)).or
          ((Keyed.rowOf TopologyLinkRow.key rows k).bind TopologyLinkRow.remoteSystemName) ∧
      r.knownCapabilities =
        (lastSome? TopologyLink.knownCapabilities (links.filter fun l => l.key = k)).or
          ((Keyed.rowOf TopologyLinkRow.key rows k).bind TopologyLinkRow.knownCapabilities) ∧
      r.learnedVia = last.learnedVia := by
  have group := group_rows links k
  have tail' : (topologyLinkTable.group (links.map TopologyLink.row) k).getLast? =
      some last.row := by
    rw [group, List.getLast?_map, tail]
    rfl
  have via := Lifetimes.rowOf_writes_replaced (T := topologyLinkTable)
    (fun _ _ => rfl : ∀ old new : TopologyLinkRow, (old.merge new).learnedVia = new.learnedVia)
    rows tail'
  have name := Lifetimes.rowOf_writes_coalesced (T := topologyLinkTable)
    (fun _ _ => rfl : ∀ old new : TopologyLinkRow, (old.merge new).remoteSystemName =
      new.remoteSystemName.or old.remoteSystemName) rows (links.map TopologyLink.row) k
  have capabilities := Lifetimes.rowOf_writes_coalesced (T := topologyLinkTable)
    TopologyLinkRow.knownCapabilities_merge rows (links.map TopologyLink.row) k
  rw [group, lastSome?_map] at name capabilities
  obtain ⟨r, found, value⟩ := Option.map_eq_some_iff.mp via
  rw [found, Option.bind_some] at name capabilities
  exact ⟨r, found, name, capabilities, value⟩

theorem capabilities_eq_iff {r : TopologyLinkRow} :
    r.capabilities = l.capabilities ↔ l.knownCapabilities = r.knownCapabilities := by
  unfold TopologyLinkRow.knownCapabilities TopologyLink.knownCapabilities
  by_cases left : r.capabilities = ""
  · by_cases right : l.capabilities = ""
    · simp [left, right]
    · simp only [left, right, if_true, if_false, reduceCtorEq, iff_false]
      exact fun same => right same.symm
  · by_cases right : l.capabilities = ""
    · simp only [left, right, if_true, if_false, reduceCtorEq]
    · simp only [left, right, if_false, Option.some.injEq]
      exact eq_comm

theorem agrees_iff (links : List TopologyLink) (rows : List TopologyLinkRow) :
    AgreesWithRecord (latestLinks links)
        (topologyLinkTable.writes rows (links.map TopologyLink.row)) ↔
      FirstSaysAll links rows := by
  constructor
  · intro agrees k first last head tail
    have same : first.key = k := by
      simpa using (List.mem_filter.mp (List.mem_of_mem_head? head)).2
    subst same
    obtain ⟨r, found, name, capabilities, via⟩ := agrees first (mem_latestLinks.mpr head)
    obtain ⟨r', found', name', capabilities', via'⟩ := stored_row rows tail
    rw [found] at found'
    cases found'
    exact ⟨name.symm.trans name', (capabilities_eq_iff.mp capabilities).trans capabilities',
      via.symm.trans via'⟩
  · intro told l mem
    obtain ⟨last, tail⟩ := exists_last_of_shown mem
    obtain ⟨name, capabilities, via⟩ := told l.key l last (mem_latestLinks.mp mem) tail
    obtain ⟨r, found, name', capabilities', via'⟩ := stored_row rows tail
    exact ⟨r, found, name'.trans name.symm,
      capabilities_eq_iff.mpr (capabilities.trans capabilities'.symm), via'.trans via.symm⟩

end

theorem storedTopologyCapture_shows (frames : List (List UInt8)) (iface : String) (now : Int)
    (rows : List TopologyLinkRow) (snapshot : TopologySnapshot) :
    ShowsCapture (announcedLinks frames iface now) snapshot
      (storedTopologyCapture frames iface now rows snapshot) := by
  have latest := storedTopologyCapture_latest frames iface now rows snapshot
  have stored := storedTopologyCapture_rows frames iface now rows snapshot
  have run : (storedTopologyCapture frames iface now rows snapshot).snapshot =
      if (storedTopologyCapture frames iface now rows snapshot).latest.isEmpty then snapshot
      else ⟨(storedTopologyCapture frames iface now rows snapshot).latest,
        (topologyLifetimes (storedTopologyCapture frames iface now rows snapshot).rows).filter
          fun lt => (storedTopologyCapture frames iface now rows snapshot).latest.any lt.bounds⟩ :=
    rfl
  constructor
  case quiet =>
    intro none_
    have empty := latestLinks_eq_nil.mpr none_
    rw [← latest] at empty
    refine ⟨empty, ?_⟩
    rw [run, empty]
    rfl
  case shown =>
    intro some_
    have full := mt latestLinks_eq_nil.mp some_
    rw [← latest] at full
    rw [run, if_neg (mt List.isEmpty_iff.mp full)]
  case distinct =>
    rw [latest]
    exact latestLinks_nodup _
  case keys =>
    rw [latest]
    exact latestLinks_keys _
  case lifetimes =>
    intro l mem
    obtain ⟨last, tail⟩ := exists_last_of_shown (latest ▸ mem)
    obtain ⟨r, found, _⟩ := stored_row rows tail
    rw [← stored] at found
    obtain ⟨held, key⟩ := Keyed.rowOf_key found
    have bounds : (⟨r.iface, r.remoteChassis, r.remotePort, r.firstSeenUs, r.lastSeenUs⟩ :
        TopologyLifetime).bounds l = true := bounds_iff.mpr key
    refine ⟨r, found, ⟨r.iface, r.remoteChassis, r.remotePort, r.firstSeenUs, r.lastSeenUs⟩, ?_,
      bounds, rfl, rfl⟩
    have full : (storedTopologyCapture frames iface now rows snapshot).latest ≠ [] :=
      List.ne_nil_of_mem mem
    rw [run, if_neg (mt List.isEmpty_iff.mp full)]
    refine List.mem_filter.mpr ⟨List.mem_map.mpr ⟨r, held, rfl⟩, ?_⟩
    exact List.any_eq_true.mpr ⟨l, mem, bounds⟩

theorem topology_snapshot_agrees_iff (frames : List (List UInt8)) (iface : String) (now : Int)
    (rows : List TopologyLinkRow) (snapshot : TopologySnapshot) :
    ShowsCapture (announcedLinks frames iface now) snapshot
        (storedTopologyCapture frames iface now rows snapshot) ∧
      (AgreesWithRecord (storedTopologyCapture frames iface now rows snapshot).latest
          (storedTopologyCapture frames iface now rows snapshot).rows ↔
        FirstSaysAll (announcedLinks frames iface now) rows) := by
  refine ⟨storedTopologyCapture_shows frames iface now rows snapshot, ?_⟩
  rw [storedTopologyCapture_latest, storedTopologyCapture_rows]
  exact agrees_iff _ rows

/-- The switch's second announcement: that it is a bridge. -/
def bridgeAnnouncement : Lldp.CdpPayload :=
  { Lldp.switchPayload with
    tlvs := Lldp.switchPayload.tlvs ++ [⟨Lldp.tlvCapabilities, [0, 0, 0, 8], by decide, by decide⟩] }

def switchFrames : List (List UInt8) :=
  [Lldp.switchFraming.encode Lldp.switchPayload.encode,
    Lldp.switchFraming.encode bridgeAnnouncement.encode]

theorem announced_switchFrames : announcedLinks switchFrames "en0" 5 =
    [⟨"en0", "sw1", "?", some "sw1", "", .cdp, 5⟩, ⟨"en0", "sw1", "?", some "sw1", "bridge", .cdp, 5⟩] := by
  have decoded {p : Lldp.CdpPayload} (fits : cdpSnap.length + p.encode.length ≤ 1500) :
      linkFromFrame (Lldp.switchFraming.encode p.encode) "en0" 5 = p.link "en0" 5 := by
    have bare := Lldp.linkFromFrame_encode Lldp.switchFraming fits [] "en0" 5
    rw [List.append_nil, List.append_nil, Lldp.linkFromCdp_encode] at bare
    exact bare
  have first : Lldp.switchPayload.link "en0" 5 = some ⟨"en0", "sw1", "?", some "sw1", "", .cdp, 5⟩ := rfl
  have second : bridgeAnnouncement.link "en0" 5 =
      some ⟨"en0", "sw1", "?", some "sw1", "bridge", .cdp, 5⟩ := rfl
  unfold announcedLinks switchFrames
  rw [List.filterMap_cons, decoded (by decide), first, List.filterMap_cons, decoded (by decide), second]
  rfl

theorem snapshot_keeps_first_announcement :
    ¬ AgreesWithRecord (storedTopologyCapture switchFrames "en0" 5 [] ⟨[], []⟩).latest
      (storedTopologyCapture switchFrames "en0" 5 [] ⟨[], []⟩).rows := by
  rw [storedTopologyCapture_latest, storedTopologyCapture_rows, announced_switchFrames]
  intro agrees
  obtain ⟨r, found, _, capabilities, _⟩ := agrees ⟨"en0", "sw1", "?", some "sw1", "", .cdp, 5⟩
    (List.mem_cons_self ..)
  have stored : Keyed.rowOf TopologyLinkRow.key (topologyLinkTable.writes []
      [⟨"en0", "sw1", "?", some "sw1", "", .cdp, 5, 5⟩,
        ⟨"en0", "sw1", "?", some "sw1", "bridge", .cdp, 5, 5⟩]) ("en0", "sw1", "?") =
      some ⟨"en0", "sw1", "?", some "sw1", "bridge", .cdp, 5, 5⟩ := rfl
  have same : r = ⟨"en0", "sw1", "?", some "sw1", "bridge", .cdp, 5, 5⟩ :=
    Option.some.inj (found.symm.trans stored)
  rw [same] at capabilities
  exact absurd capabilities (by decide)

end NetObserver
