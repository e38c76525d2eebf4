import NetObserver.NeighborScanner

/-! The interface that the probes of a neighbour scan leave through. -/

namespace NetObserver

/-- Every probe is on a socket pinned to the interface, and what the scan counts as reached it
probed. -/
structure RungsRun.KeepsTo (run : RungsRun) (iface : String) : Prop where
  pinned : ∀ p ∈ run.datagrams ++ run.connects ++ run.grabs, p.via = some iface
  sent : run.sweep.sent ≤ run.datagrams.length
  reached : ∀ ps ∈ run.ports, ∀ f ∈ ps.openPorts, ∃ p ∈ run.connects, p.ip = f.ip ∧ p.port = f.port
  heard : ∀ bg ∈ run.banners, ∀ b ∈ bg.banners, ∃ p ∈ run.grabs, p.ip = b.ip ∧ p.port = b.port

/-- No port rung is asked for, or each address that it gets a socket for is IPv4, and the interface
has a name. -/
def ScanOptions.PinsSockets (opts : ScanOptions) (os : SocketCalls) (facts : ScanFacts) : Prop :=
  opts.ports = true → ∀ ip ∈ opts.targets facts, ∀ port ∈ commonPorts,
    os.newTcp .ports ip port = true → ip.isIpv4 = true ∧ facts.iface ≠ ""

section

variable {os : SocketCalls} {rung : TcpRung} {ip : IpAddr} {port : Nat} {iface : String}

/-- A socket that is opened is pinned exactly where its address is IPv4 and the interface named. -/
theorem openSocket_via {via : Option String} (opened : openSocket os rung ip port iface = some via) :
    via = some iface ↔ ip.isIpv4 = true ∧ iface ≠ "" := by
  unfold openSocket at opened
  split at opened
  · cases opened
  · split at opened
    next pins =>
      have both : ip.isIpv4 = true ∧ iface ≠ "" := by simpa using pins
      split at opened
      · cases opened
        exact iff_of_true rfl both
      · cases opened
    next free =>
      cases opened
      have not_ : ¬ (ip.isIpv4 = true ∧ iface ≠ "") := by simpa using free
      exact iff_of_false nofun not_

theorem openSocket_new {via : Option String} (opened : openSocket os rung ip port iface = some via) :
    os.newTcp rung ip port = true := by
  unfold openSocket at opened
  split at opened
  · cases opened
  next made => simpa using made

/-- A socket that there is and that is not to be pinned is used as it is. -/
theorem openSocket_free (made : os.newTcp rung ip port = true)
    (free : ¬ (ip.isIpv4 = true ∧ iface ≠ "")) : openSocket os rung ip port iface = some none := by
  have unpinned : ¬ (ip.isIpv4 && iface != "") = true := by simpa using free
  unfold openSocket
  rw [made, if_neg (by decide), if_neg unpinned]

theorem mem_connectOpen {p : Probe} : p ∈ (connectOpen os ip port iface).2 ↔
    ∃ via, openSocket os .ports ip port iface = some via ∧ p = ⟨ip, port, via⟩ := by
  unfold connectOpen
  cases openSocket os .ports ip port iface with
  | none => simp
  | some via => simp

theorem mem_grabBanner {p : Probe} : p ∈ (grabBanner os ip port iface).2 ↔
    ∃ via, openSocket os .banners ip port iface = some via ∧ p = ⟨ip, port, via⟩ := by
  unfold grabBanner
  cases openSocket os .banners ip port iface with
  | none => simp
  | some via => simp

/-- A port that accepted was connected to. -/
theorem connectOpen_reached (reached : (connectOpen os ip port iface).1 = true) :
    ∃ p ∈ (connectOpen os ip port iface).2, p.ip = ip ∧ p.port = port := by
  unfold connectOpen at reached
  cases opened : openSocket os .ports ip port iface with
  | none =>
    rw [opened] at reached
    cases reached
  | some via => exact ⟨⟨ip, port, via⟩, mem_connectOpen.mpr ⟨via, opened, rfl⟩, rfl, rfl⟩

theorem grabBanner_heard {banner : String} (heard : (grabBanner os ip port iface).1 = some banner) :
    ∃ p ∈ (grabBanner os ip port iface).2, p.ip = ip ∧ p.port = port := by
  unfold grabBanner at heard
  cases opened : openSocket os .banners ip port iface with
  | none =>
    rw [opened] at heard
    cases heard
  | some via => exact ⟨⟨ip, port, via⟩, mem_grabBanner.mpr ⟨via, opened, rfl⟩, rfl, rfl⟩

end

section

variable {os : SocketCalls} {targets : List IpAddr} {ports : List Nat} {iface : String}

theorem mem_portScan_probes {p : Probe} : p ∈ (portScan os targets ports iface).2 ↔
    ∃ ip ∈ targets, ∃ port ∈ ports, p ∈ (connectOpen os ip port iface).2 := by
  simp only [portScan, List.mem_flatMap, List.mem_map]
  constructor
  · rintro ⟨_, ⟨ip, asked, port, listed, rfl⟩, sent⟩
    exact ⟨ip, asked, port, listed, sent⟩
  · rintro ⟨ip, asked, port, listed, sent⟩
    exact ⟨(ip, port), ⟨ip, asked, port, listed, rfl⟩, sent⟩

theorem mem_portScan_open {f : PortFinding} (mem : f ∈ (portScan os targets ports iface).1.openPorts) :
    f.ip ∈ targets ∧ f.port ∈ ports ∧ (connectOpen os f.ip f.port iface).1 = true := by
  simp only [portScan, List.mem_mergeSort, List.mem_map, List.mem_filter, List.mem_flatMap] at mem
  obtain ⟨_, ⟨⟨ip, asked, port, listed, rfl⟩, reached⟩, rfl⟩ := mem
  exact ⟨asked, listed, reached⟩

theorem mem_bannerGrab_probes {openPorts : List PortFinding} {p : Probe} :
    p ∈ (bannerGrab os openPorts iface).2 ↔
      ∃ f ∈ openPorts, p ∈ (grabBanner os f.ip f.port iface).2 :=
  List.mem_flatMap

theorem mem_bannerGrab {openPorts : List PortFinding} {b : BannerFinding}
    (mem : b ∈ (bannerGrab os openPorts iface).1.banners) :
    ∃ f ∈ openPorts, f.ip = b.ip ∧ f.port = b.port ∧
      (grabBanner os f.ip f.port iface).1 = some b.banner := by
  simp only [bannerGrab, List.mem_mergeSort, List.mem_filterMap, Option.map_eq_some_iff] at mem
  obtain ⟨f, listed, banner, heard, rfl⟩ := mem
  exact ⟨f, listed, rfl, rfl, heard⟩

end

/-- The datagrams of a sweep are all on the pinned socket, or there are none. -/
theorem probeAddrs_keeps (os : SocketCalls) (addrs : List Ipv4Addr) (label iface : String) :
    (∀ p ∈ (probeAddrs os addrs label iface).2, p.via = some iface) ∧
      (probeAddrs os addrs label iface).1.sent ≤ (probeAddrs os addrs label iface).2.length := by
  unfold probeAddrs
  split
  · exact ⟨nofun, Nat.le_refl 0⟩
  · split
    · exact ⟨nofun, Nat.le_refl 0⟩
    · constructor
      · intro p mem
        obtain ⟨a, _, rfl⟩ := List.mem_map.mp mem
        rfl
      · have fewer := List.length_filter_le os.sendTo addrs
        rw [List.length_map]
        exact fewer

theorem sweepRung_keeps (os : SocketCalls) (facts : ScanFacts) (opts : ScanOptions) :
    (∀ p ∈ (sweepRung os facts opts).2, p.via = some facts.iface) ∧
      (sweepRung os facts opts).1.sent ≤ (sweepRung os facts opts).2.length := by
  unfold sweepRung
  split
  · exact probeAddrs_keeps os _ _ _
  · exact ⟨nofun, Nat.le_refl 0⟩
  · split
    · unfold sweepProbe
      split
      · exact ⟨nofun, Nat.le_refl 0⟩
      · exact probeAddrs_keeps os _ _ _
    · exact ⟨nofun, Nat.le_refl 0⟩

section

variable {os : SocketCalls} {facts : ScanFacts} {opts : ScanOptions}

theorem mem_connects {p : Probe} : p ∈ (runRungs os facts opts).connects ↔
    opts.ports = true ∧
      p ∈ (portScan os (opts.targets facts) commonPorts facts.iface).2 := by
  cases asked : opts.ports with
  | true => simp [runRungs, asked]
  | false => simp [runRungs, asked]

theorem mem_grabs {p : Probe} (mem : p ∈ (runRungs os facts opts).grabs) : opts.ports = true ∧
    p ∈ (bannerGrab os (portScan os (opts.targets facts) commonPorts facts.iface).1.openPorts
      facts.iface).2 := by
  cases asked : opts.ports with
  | true =>
    cases read : opts.banners with
    | true => simpa [runRungs, asked, read] using mem
    | false => simp [runRungs, read] at mem
  | false =>
    cases read : opts.banners with
    | true => simp [runRungs, asked, read] at mem
    | false => simp [runRungs, read] at mem

theorem ports_eq {ps : PortScanOutcome} (ran : ps ∈ (runRungs os facts opts).ports) :
    opts.ports = true ∧
      ps = (portScan os (opts.targets facts) commonPorts facts.iface).1 := by
  cases asked : opts.ports with
  | true =>
    simp only [runRungs, asked, if_true, Option.map_some, Option.mem_some_iff] at ran
    exact ⟨rfl, ran.symm⟩
  | false => simp [runRungs, asked] at ran

theorem banners_eq {bg : BannerGrabOutcome} (ran : bg ∈ (runRungs os facts opts).banners) :
    bg = (bannerGrab os (portScan os (opts.targets facts) commonPorts facts.iface).1.openPorts
        facts.iface).1 ∧
      (runRungs os facts opts).grabs =
        (bannerGrab os (portScan os (opts.targets facts) commonPorts facts.iface).1.openPorts
          facts.iface).2 := by
  cases asked : opts.ports with
  | true =>
    cases read : opts.banners with
    | true =>
      simp only [runRungs, asked, read, if_true, Option.map_some, Option.mem_some_iff] at ran
      refine ⟨ran.symm, ?_⟩
      simp only [runRungs, asked, read, if_true, Option.map_some, Option.getD_some]
    | false => simp [runRungs, read] at ran
  | false =>
    cases read : opts.banners with
    | true => simp [runRungs, asked, read] at ran
    | false => simp [runRungs, read] at ran

/-- The rungs keep to the interface exactly when the port rung gets no socket that it leaves
unpinned. -/
theorem keepsTo_iff :
    (runRungs os facts opts).KeepsTo facts.iface ↔ opts.PinsSockets os facts := by
  constructor
  · intro keeps asked ip listed port common made
    by_contra free
    have opened := openSocket_free made free
    have sent : (⟨ip, port, none⟩ : Probe) ∈ (runRungs os facts opts).connects :=
      mem_connects.mpr ⟨asked, mem_portScan_probes.mpr
        ⟨ip, listed, port, common, mem_connectOpen.mpr ⟨none, opened, rfl⟩⟩⟩
    have pinned := keeps.pinned _ (List.mem_append_left _ (List.mem_append_right _ sent))
    cases pinned
  · intro pins
    refine ⟨?_, (sweepRung_keeps os facts opts).2, ?_, ?_⟩
    · intro p mem
      rcases List.mem_append.mp mem with mem | grabbed
      · rcases List.mem_append.mp mem with datagram | connect
        · exact (sweepRung_keeps os facts opts).1 p datagram
        · obtain ⟨asked, scanned⟩ := mem_connects.mp connect
          obtain ⟨ip, listed, port, common, sent⟩ := mem_portScan_probes.mp scanned
          obtain ⟨via, opened, rfl⟩ := mem_connectOpen.mp sent
          exact (openSocket_via opened).mpr (pins asked ip listed port common (openSocket_new opened))
      · obtain ⟨asked, grabbed⟩ := mem_grabs grabbed
        obtain ⟨f, found, sent⟩ := mem_bannerGrab_probes.mp grabbed
        obtain ⟨via, opened, rfl⟩ := mem_grabBanner.mp sent
        -- The port was found open, so the port rung had a socket for it.
        obtain ⟨listed, common, reached⟩ := mem_portScan_open found
        obtain ⟨p, tried, _⟩ := connectOpen_reached reached
        obtain ⟨_, first, _⟩ := mem_connectOpen.mp tried
        exact (openSocket_via opened).mpr
          (pins asked f.ip listed f.port common (openSocket_new first))
    · intro ps ran f found
      obtain ⟨asked, rfl⟩ := ports_eq ran
      obtain ⟨listed, common, reached⟩ := mem_portScan_open found
      obtain ⟨p, tried, same⟩ := connectOpen_reached reached
      exact ⟨p, mem_connects.mpr ⟨asked, mem_portScan_probes.mpr
        ⟨f.ip, listed, f.port, common, tried⟩⟩, same⟩
    · intro bg ran b found
      obtain ⟨rfl, grabs⟩ := banners_eq ran
      obtain ⟨f, listed, ip, port, heard⟩ := mem_bannerGrab found
      obtain ⟨p, tried, same⟩ := grabBanner_heard heard
      rw [grabs]
      refine ⟨p, mem_bannerGrab_probes.mpr ⟨f, listed, tried⟩, ?_⟩
      rw [← ip, ← port]
      exact same

end

/-- Every scan that is admitted keeps to its interface, whatever it is asked for, exactly when its
port rung gets no socket for an IPv6 address, nor any where the interface has no name. -/
theorem scan_probes_pinned_iff (os : SocketCalls) (facts : Option ScanFacts)
    (observing scannerThere snapshotAvailable : Bool) (requested : ScanOptions) :
    (∀ run, scanNow os facts observing scannerThere snapshotAvailable requested = .ok run →
        ∃ f, facts = some f ∧ run.KeepsTo f.iface) ↔
      (admitScan observing scannerThere requested = .ok () →
        ∀ f, facts = some f → requested.PinsSockets os f) := by
  have same (f : ScanFacts) : (requested.effective snapshotAvailable).PinsSockets os f ↔
      requested.PinsSockets os f := Iff.rfl
  cases admitted : admitScan observing scannerThere requested with
  | error message =>
    constructor
    · intro _ refused
      cases refused
    · intro _ run ran
      unfold scanNow at ran
      rw [admitted] at ran
      cases ran
  | ok _ =>
    cases facts with
    | none =>
      constructor
      · intro _ _ f absent
        cases absent
      · intro _ run ran
        unfold scanNow at ran
        rw [admitted] at ran
        cases ran
    | some f =>
      have ran : scanNow os (some f) observing scannerThere snapshotAvailable requested =
          .ok (runRungs os f (requested.effective snapshotAvailable)) := by
        unfold scanNow
        rw [admitted]
        rfl
      constructor
      · intro keeps _ g here
        cases here
        obtain ⟨g, here, keeps⟩ := keeps _ ran
        cases here
        exact (same f).mp (keepsTo_iff.mp keeps)
      · intro pins run ran'
        rw [ran] at ran'
        cases ran'
        exact ⟨f, rfl, keepsTo_iff.mpr ((same f).mpr (pins rfl f rfl))⟩

/-- A host whose calls all go through, on a tunnelled machine. -/
def willingHost : SocketCalls where
  bindUdp := .ok ()
  pinUdp := true
  sendTo := fun _ => true
  newTcp := fun _ _ _ => true
  pinTcp := fun _ _ _ => true
  connect := fun _ _ _ => false
  greeting := fun _ _ => none
  sweepMs := 0
  portsMs := 0
  bannersMs := 0

def onEn0 : ScanFacts := ⟨"en0", none, none, [], ⟨fun _ => none, 0, 0⟩⟩

/-- The ports of `2001:db8::5`. -/
def portsOfIpv6 : ScanOptions :=
  ⟨true, false, false, some (.v6 #v[0x2001, 0xdb8, 0, 0, 0, 0, 0, 5]), false, none⟩

/-- The ports of an IPv6 target are tried on sockets that no interface is set for. -/
theorem ipv6_ports_unpinned :
    ¬ ∀ run, scanNow willingHost (some onEn0) true true false portsOfIpv6 = .ok run →
      ∃ f, some onEn0 = some f ∧ run.KeepsTo f.iface := by
  intro keeps
  have ran : scanNow willingHost (some onEn0) true true false portsOfIpv6 =
      .ok (runRungs willingHost onEn0 portsOfIpv6) := rfl
  obtain ⟨_, here, keeps⟩ := keeps _ ran
  cases here
  have sent : (⟨.v6 #v[0x2001, 0xdb8, 0, 0, 0, 0, 0, 5], 21, none⟩ : Probe) ∈
      (runRungs willingHost onEn0 portsOfIpv6).connects := List.mem_cons_self
  have pinned := keeps.pinned _ (List.mem_append_left _ (List.mem_append_right _ sent))
  cases pinned

end NetObserver
