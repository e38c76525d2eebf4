import NetObserver.OperatorScans
import NetObserver.Machine

/-! The report of a neighbour scan, composed out of what each of its methods did. -/

namespace NetObserver

namespace IpAddr

/-- The digits in front, at most `maxDigits` of them, as one number and what is behind them. -/
def readNumber (radix maxDigits : Nat) (zeroFront : Bool) (text : List Char) :
    Option (Nat × List Char) :=
  let value (c : Char) : Option Nat :=
    let digit :=
      if c.isDigit then c.toNat - '0'.toNat
      else if 'a' ≤ c ∧ c ≤ 'z' then c.toNat - 'a'.toNat + 10
      else if 'A' ≤ c ∧ c ≤ 'Z' then c.toNat - 'A'.toNat + 10
      else radix
    if digit < radix then some digit else none
  let digits := text.takeWhile fun c => (value c).isSome
  if digits.length = 0 ∨ maxDigits < digits.length then none
  else if !zeroFront && digits.head? == some '0' && decide (1 < digits.length) then none
  else some ((digits.filterMap value).foldl (fun n d => n * radix + d) 0, text.drop digits.length)

/-- What `read` takes, behind a separator unless it comes first. -/
def readSeparated {α : Type} (separator : Char) (index : Nat)
    (read : List Char → Option (α × List Char)) (text : List Char) : Option (α × List Char) :=
  match index, text with
  | 0, text => read text
  | _ + 1, c :: rest => if c = separator then read rest else none
  | _ + 1, [] => none

/-- The octets from position `index` on. -/
def readOctets : Nat → Nat → List Char → Option (List UInt8 × List Char)
  | 0, _, text => some ([], text)
  | left + 1, index, text =>
    (readSeparated '.' index (readNumber 10 3 false) text).bind fun (octet, text) =>
      if octet < 256 then
        (readOctets left (index + 1) text).map fun (octets, text) =>
          (UInt8.ofNat octet :: octets, text)
      else none

def readIpv4 (text : List Char) : Option (List UInt8 × List Char) := readOctets 4 0 text

/-- At most `left` groups from position `index` on, the last two perhaps as a dotted address. -/
def readGroups : Nat → Nat → List Char → (List UInt16 × Bool) × List Char
  | 0, _, text => (([], false), text)
  | left + 1, index, text =>
    let dotted := if 0 < left then readSeparated ':' index readIpv4 text else none
    match dotted with
    | some (octets, text) =>
      let group (i : Nat) :=
        UInt16.ofNat ((octets.getD i 0).toNat * 256 + (octets.getD (i + 1) 0).toNat)
      (([group 0, group 2], true), text)
    | none =>
      match readSeparated ':' index (readNumber 16 4 true) text with
      | some (group, text) =>
        let ((groups, dotted), text) := readGroups left (index + 1) text
        ((UInt16.ofNat group :: groups, dotted), text)
      | none => (([], false), text)

def readIpv6 (text : List Char) : Option (List UInt16 × List Char) :=
  let ((front, dotted), text) := readGroups 8 0 text
  if front.length = 8 then some (front, text)
  else if dotted then none
  else
    match text with
    | ':' :: ':' :: text =>
      let ((behind, _), text) := readGroups (7 - front.length) 0 text
      some (front ++ List.replicate (8 - front.length - behind.length) 0 ++ behind, text)
    | _ => none

/-- `str::parse::<IpAddr>`: the whole text is the address. -/
def parse (s : String) : Option IpAddr :=
  match readIpv4 s.toList with
  | some (octets, rest) =>
    if rest.isEmpty then some (.v4 (Vector.ofFn fun i => octets.getD i 0)) else none
  | none =>
    match readIpv6 s.toList with
    | some (segments, rest) =>
      if rest.isEmpty then some (.v6 (Vector.ofFn fun i => segments.getD i 0)) else none
    | none => none

end IpAddr

/-- What the sweep, or the probe of one target, put on the wire. -/
structure SweepStats where
  target : String
  sent : Nat
  total : Nat
  durationMs : Nat
  refused : Option String

structure MdnsOutcome where
  names : IpAddr → Option String
  typesBrowsed : Nat
  durationMs : Nat

structure PortFinding where
  ip : IpAddr
  port : Nat

structure PortScanOutcome where
  openPorts : List PortFinding
  hosts : Nat
  portsPerHost : Nat
  durationMs : Nat

structure BannerFinding where
  ip : IpAddr
  port : Nat
  banner : String

structure BannerGrabOutcome where
  banners : List BannerFinding
  probed : Nat
  durationMs : Nat

/-- `MDNS_TARGET`. -/
def mdnsTarget : String := "_services._dns-sd._udp.local."

/-- The name mDNS gave for an address as an ARP entry writes it. -/
def MdnsOutcome.nameOf (mdns : MdnsOutcome) (ip : String) : Option String :=
  (IpAddr.parse ip).bind mdns.names

/-- What the cache holds is the sweep's doing unless it was refused. -/
def SweepStats.mark (sweep : SweepStats) (arp : List NeighborObs) : List NeighborObs :=
  if sweep.refused.isNone then arp.map fun n => { n with source := .sweep } else arp

/-- The entries whose address has a name. -/
def joinNamesOntoArp (arp : List NeighborObs) (mdns : MdnsOutcome) : List NeighborObs :=
  arp.filterMap fun n =>
    (mdns.nameOf n.ip).map fun host => ⟨n.mac, n.ip, .mdns, some host, .unknown⟩

/-- The name goes to every entry of the named one's MAC. -/
def NeighborObs.nameFrom (named : List NeighborObs) (n : NeighborObs) : NeighborObs :=
  match named.find? fun m => m.mac = n.mac with
  | some m => { n with hostname := m.hostname, source := .mdns }
  | none => n

/-- The MAC of the neighbour that has the address, or the target's own identity. -/
def PortFinding.owner (found : List NeighborObs) (target : Option IpAddr) (f : PortFinding) :
    Option String :=
  match found.find? fun n => n.ip = f.ip.text with
  | some n => some n.mac
  | none => if target = some f.ip then some ("ip:" ++ f.ip.text) else none

def PortFinding.banner (grab : Option BannerGrabOutcome) (f : PortFinding) : Option String :=
  grab.bind fun bg =>
    (bg.banners.find? fun b => b.ip = f.ip ∧ b.port = f.port).map BannerFinding.banner

/-- The report and the line the operator sees. -/
structure ComposedReport extends ScanReport where
  cveNote : Option String
  message : String

/-- A count as the row's `i32` column takes it. -/
def rowCount (n : Nat) : Nat := min n 2147483647

/-- How many of the raw findings no row keeps. -/
def notPersisted (raw persisted : Nat) : Nat := raw - persisted

/-- The raw count with what no row keeps of it, or else the count to show. -/
def accountText (raw persisted shown : Nat) (what why : String) : String :=
  if 0 < notPersisted raw persisted then
    s!"{raw} {what} ({notPersisted raw persisted} not persisted: {why})"
  else s!"{shown} {what}"

def composeScanReport (tsUs : Int) (networkKey : Option String) (iface : String)
    (sweep : SweepStats) (arp : List NeighborObs) (mdns : MdnsOutcome)
    (portScan : Option PortScanOutcome) (bannerGrab : Option BannerGrabOutcome)
    (target : Option IpAddr) : ComposedReport :=
  let found := sweep.mark arp
  let named := joinNamesOntoArp found mdns
  let found := found.map (NeighborObs.nameFrom named)
  let openPorts := (portScan.map PortScanOutcome.openPorts).getD []
  let ports := openPorts.filterMap fun f =>
    (f.owner found target).map fun mac =>
      NeighborPort.mk networkKey mac f.ip.text f.port tsUs (f.banner bannerGrab)
  let grabbed := (ports.filter fun p => p.banner.isSome).length
  let bannersRaw := ((bannerGrab.map BannerGrabOutcome.banners).getD []).length
  let row (method target : String) (found durationMs : Nat) (detail : String) : NeighborScan :=
    ⟨tsUs, networkKey, some iface, method, target, rowCount found, durationMs, some detail⟩
  let message :=
    match sweep.refused with
    | none => s!"swept {sweep.target} ({sweep.sent}/{sweep.total} probed): " ++
        s!"{found.length} neighbours, {named.length} named"
    | some r => s!"sweep refused ({r}); nothing probed — " ++
        s!"{found.length} neighbours from the cache, {named.length} named"
  { tsUs := tsUs
    networkKey := networkKey
    iface := some iface
    found := found
    scans :=
      [row "sweep" sweep.target (if sweep.refused.isNone then found.length else 0) sweep.durationMs
          (match sweep.refused with
            | some r => s!"refused: {r}"
            | none => s!"{sweep.sent}/{sweep.total} probed"),
        row "mdns" mdnsTarget named.length mdns.durationMs
          s!"{mdns.typesBrowsed} service types browsed"] ++
      portScan.toList.map (fun ps =>
        row "ports" s!"{ps.hosts} hosts x {ps.portsPerHost} ports" ports.length ps.durationMs
          (accountText openPorts.length ports.length ports.length "open"
            "no segment MAC to key by")) ++
      bannerGrab.toList.map fun bg =>
        row "banners" s!"{bg.probed} open ports" grabbed bg.durationMs
          (accountText bannersRaw grabbed grabbed "banners" "no segment MAC to key by")
    ports := ports
    vulns := []
    cveNote := none
    message := message ++
      (if portScan.isSome then
        "; " ++ accountText openPorts.length ports.length openPorts.length "open ports"
          "no segment MAC"
      else "") ++
      if bannerGrab.isSome then
        ", " ++ accountText bannersRaw grabbed bannersRaw "banners" "no segment MAC"
      else "" }

/-- What a scan's report may say of one open port. -/
def PortFinding.RowIs (found : List NeighborObs) (bannerGrab : Option BannerGrabOutcome)
    (target : Option IpAddr) (f : PortFinding) : Option NeighborPort → Prop
  | none => (∀ n ∈ found, n.ip ≠ f.ip.text) ∧ target ≠ some f.ip
  | some p =>
    p.ip = f.ip.text ∧ p.port = f.port ∧
      ((∃ n ∈ found, n.ip = f.ip.text ∧ p.mac = n.mac) ∨
        (∀ n ∈ found, n.ip ≠ f.ip.text) ∧ target = some f.ip ∧ p.mac = "ip:" ++ f.ip.text) ∧
      ∀ banner, p.banner = some banner →
        ∃ bg, bannerGrab = some bg ∧ ⟨f.ip, f.port, banner⟩ ∈ bg.banners

def ComposedReport.grabbed (r : ComposedReport) : Nat :=
  (r.ports.filter fun p => p.banner.isSome).length

/-- A report that claims only what the scan did. -/
structure ComposedReport.Honest (r : ComposedReport) (sweep : SweepStats) (arp : List NeighborObs)
    (mdns : MdnsOutcome) (openPorts : List PortFinding) (bannerGrab : Option BannerGrabOutcome)
    (target : Option IpAddr) : Prop where
  entries : r.found.map (fun n => (n.mac, n.ip)) = arp.map fun n => (n.mac, n.ip)
  hostnames : ∀ n ∈ r.found, ∀ name, n.hostname = some name → mdns.nameOf n.ip = some name
  swept : ∀ n ∈ r.found, n.source = .sweep → sweep.refused = none
  rows : ∃ rows, r.ports = rows.reduceOption ∧
    List.Forall₂ (PortFinding.RowIs r.found bannerGrab target) openPorts rows
  ports : r.ports.length + notPersisted openPorts.length r.ports.length = openPorts.length
  banners : ∀ bg ∈ bannerGrab,
    r.grabbed + notPersisted bg.banners.length r.grabbed = bg.banners.length

/-- The entry whose name every entry of the MAC gets. -/
def MdnsOutcome.firstNamed (mdns : MdnsOutcome) (arp : List NeighborObs) (mac : String) :
    Option NeighborObs :=
  arp.find? fun m => m.mac = mac ∧ (mdns.nameOf m.ip).isSome

theorem find_named (arp : List NeighborObs) (mdns : MdnsOutcome) (mac : String) :
    ((joinNamesOntoArp arp mdns).find? fun m => m.mac = mac).map NeighborObs.hostname =
      (mdns.firstNamed arp mac).map fun m => mdns.nameOf m.ip := by
  induction arp with
  | nil => rfl
  | cons n rest ih =>
    unfold joinNamesOntoArp MdnsOutcome.firstNamed at *
    cases name : mdns.nameOf n.ip with
    | none => simpa [List.filterMap_cons, List.find?_cons, name] using ih
    | some host =>
      by_cases same : n.mac = mac
      · simp [List.filterMap_cons, List.find?_cons, name, same]
      · simpa [List.filterMap_cons, List.find?_cons, name, same] using ih

theorem hostname_nameFrom (arp : List NeighborObs) (mdns : MdnsOutcome) (n : NeighborObs) :
    (n.nameFrom (joinNamesOntoArp arp mdns)).hostname =
      ((mdns.firstNamed arp n.mac).map fun m => mdns.nameOf m.ip).getD n.hostname := by
  rw [← find_named]
  unfold NeighborObs.nameFrom
  cases (joinNamesOntoArp arp mdns).find? fun m => m.mac = n.mac <;> rfl

theorem address_nameFrom (named : List NeighborObs) (n : NeighborObs) :
    ((n.nameFrom named).mac, (n.nameFrom named).ip) = (n.mac, n.ip) := by
  unfold NeighborObs.nameFrom
  cases named.find? fun m => m.mac = n.mac <;> rfl

/-- A name never makes an entry the sweep's. -/
theorem source_nameFrom {named : List NeighborObs} {n : NeighborObs}
    (swept : (n.nameFrom named).source = .sweep) : n.source = .sweep := by
  unfold NeighborObs.nameFrom at swept
  split at swept
  · cases swept
  · exact swept

namespace SweepStats

variable (sweep : SweepStats) (arp : List NeighborObs)

theorem address_mark :
    (sweep.mark arp).map (fun n => (n.mac, n.ip)) = arp.map fun n => (n.mac, n.ip) := by
  unfold mark
  split
  · rw [List.map_map]
    rfl
  · rfl

theorem firstNamed_mark (mdns : MdnsOutcome) (mac : String) :
    ((mdns.firstNamed (sweep.mark arp) mac).map fun m => mdns.nameOf m.ip) =
      (mdns.firstNamed arp mac).map fun m => mdns.nameOf m.ip := by
  unfold mark
  split
  · unfold MdnsOutcome.firstNamed
    rw [List.find?_map, Option.map_map]
    rfl
  · rfl

/-- An entry of the marked list is one of the cache's but for its source. -/
theorem mem_mark {n : NeighborObs} (mem : n ∈ sweep.mark arp) :
    ∃ m ∈ arp, m.mac = n.mac ∧ m.ip = n.ip ∧ m.hostname = n.hostname ∧
      (n.source = m.source ∨ n.source = .sweep ∧ sweep.refused = none) := by
  unfold mark at mem
  split at mem
  next swept =>
    obtain ⟨m, cached, rfl⟩ := List.mem_map.mp mem
    exact ⟨m, cached, rfl, rfl, rfl, .inr ⟨rfl, Option.isNone_iff_eq_none.mp swept⟩⟩
  next => exact ⟨n, mem, rfl, rfl, rfl, .inl rfl⟩

theorem exists_mem_mark {n : NeighborObs} (mem : n ∈ arp) :
    ∃ k ∈ sweep.mark arp, k.mac = n.mac ∧ k.ip = n.ip := by
  have there : (n.mac, n.ip) ∈ arp.map fun n => (n.mac, n.ip) := List.mem_map.mpr ⟨n, mem, rfl⟩
  rw [← sweep.address_mark] at there
  obtain ⟨k, marked, same⟩ := List.mem_map.mp there
  exact ⟨k, marked, (Prod.mk.inj same).1, (Prod.mk.inj same).2⟩

end SweepStats

/-- The hostnames are their own addresses' names exactly when the first named entry of each MAC
speaks for all of them. -/
theorem hostnames_own_iff (sweep : SweepStats) {arp : List NeighborObs} (mdns : MdnsOutcome)
    (unnamed : ∀ n ∈ arp, n.hostname = none) :
    (∀ n ∈ (sweep.mark arp).map (NeighborObs.nameFrom (joinNamesOntoArp (sweep.mark arp) mdns)),
        ∀ name, n.hostname = some name → mdns.nameOf n.ip = some name) ↔
      ∀ n ∈ arp, ∀ m, mdns.firstNamed arp n.mac = some m → mdns.nameOf n.ip = mdns.nameOf m.ip := by
  have hostname : ∀ k ∈ sweep.mark arp,
      (k.nameFrom (joinNamesOntoArp (sweep.mark arp) mdns)).hostname =
        ((mdns.firstNamed arp k.mac).map fun m => mdns.nameOf m.ip).getD none := by
    intro k marked
    obtain ⟨m, cached, -, -, same, -⟩ := sweep.mem_mark arp marked
    rw [hostname_nameFrom, sweep.firstNamed_mark, ← same, unnamed m cached]
  constructor
  · intro own n mem m first
    obtain ⟨k, marked, mac, ip⟩ := sweep.exists_mem_mark arp mem
    have named := List.find?_some first
    simp only [decide_eq_true_eq] at named
    obtain ⟨name, given⟩ := Option.isSome_iff_exists.mp named.2
    have address := address_nameFrom (joinNamesOntoArp (sweep.mark arp) mdns) k
    have told := own _ (List.mem_map_of_mem marked) name (by
      rw [hostname k marked, mac, first]
      exact given)
    rw [(Prod.mk.inj address).2, ip] at told
    rw [told, given]
  · intro same n mem name given
    obtain ⟨k, marked, rfl⟩ := List.mem_map.mp mem
    obtain ⟨m, cached, mac, ip, -, -⟩ := sweep.mem_mark arp marked
    have address := address_nameFrom (joinNamesOntoArp (sweep.mark arp) mdns) k
    rw [(Prod.mk.inj address).2, ← ip]
    rw [hostname k marked, ← mac] at given
    cases first : mdns.firstNamed arp m.mac with
    | none =>
      rw [first] at given
      cases given
    | some first_ =>
      rw [first] at given
      rw [same m cached first_ first]
      exact given

theorem PortFinding.rowIs_row (found : List NeighborObs) (bannerGrab : Option BannerGrabOutcome)
    (target : Option IpAddr) (networkKey : Option String) (tsUs : Int) (f : PortFinding) :
    f.RowIs found bannerGrab target ((f.owner found target).map fun mac =>
      ⟨networkKey, mac, f.ip.text, f.port, tsUs, f.banner bannerGrab⟩) := by
  have banners : ∀ banner, f.banner bannerGrab = some banner →
      ∃ bg, bannerGrab = some bg ∧ ⟨f.ip, f.port, banner⟩ ∈ bg.banners := by
    intro banner read
    unfold PortFinding.banner at read
    obtain ⟨bg, grabbed, read⟩ := Option.bind_eq_some_iff.mp read
    obtain ⟨⟨ip, port, _⟩, heard, rfl⟩ := Option.map_eq_some_iff.mp read
    have same := List.find?_some heard
    simp only [decide_eq_true_eq] at same
    obtain ⟨rfl, rfl⟩ := same
    exact ⟨bg, grabbed, List.mem_of_find?_eq_some heard⟩
  unfold PortFinding.owner
  split
  next n holder =>
    have same := List.find?_some holder
    refine ⟨rfl, rfl, .inl ⟨n, List.mem_of_find?_eq_some holder, ?_, rfl⟩, banners⟩
    simpa using same
  next none_ =>
    have ownerless : ∀ n ∈ found, n.ip ≠ f.ip.text := by simpa using none_
    split
    next asked => exact ⟨rfl, rfl, .inr ⟨ownerless, asked, rfl⟩, banners⟩
    next other => exact ⟨ownerless, other⟩

/-- Whether an open port has a MAC, or the target's identity, to key its row by. -/
def PortFinding.kept (arp : List NeighborObs) (target : Option IpAddr) (f : PortFinding) : Bool :=
  arp.any (fun n => n.ip = f.ip.text) || decide (target = some f.ip)

theorem PortFinding.isSome_owner {found arp : List NeighborObs}
    (entries : found.map (fun n => (n.mac, n.ip)) = arp.map fun n => (n.mac, n.ip))
    (target : Option IpAddr) (f : PortFinding) :
    (f.owner found target).isSome = f.kept arp target := by
  have held : found.any (fun n => n.ip = f.ip.text) = arp.any fun n => n.ip = f.ip.text := by
    have both := congrArg (fun list => list.any fun e : String × String => e.2 = f.ip.text) entries
    simpa [List.any_map, Function.comp_def] using both
  unfold PortFinding.owner PortFinding.kept
  rw [← held]
  split
  next n holder =>
    have same : n.ip = f.ip.text := by simpa using List.find?_some holder
    have some_ : found.any (fun n => n.ip = f.ip.text) = true :=
      List.any_eq_true.mpr ⟨n, List.mem_of_find?_eq_some holder, decide_eq_true same⟩
    rw [some_]
    rfl
  next none_ =>
    have ownerless : found.any (fun n => n.ip = f.ip.text) = false := by simpa using none_
    rw [ownerless, Bool.false_or]
    split
    next asked => rw [decide_eq_true asked]; rfl
    next other => rw [decide_eq_false other]; rfl

/-- The rows with a banner, counted over the open ports. -/
theorem length_grabbed {found arp : List NeighborObs}
    (entries : found.map (fun n => (n.mac, n.ip)) = arp.map fun n => (n.mac, n.ip))
    (bannerGrab : Option BannerGrabOutcome) (target : Option IpAddr) (networkKey : Option String)
    (tsUs : Int) (openPorts : List PortFinding) :
    ((openPorts.filterMap fun f => (f.owner found target).map fun mac =>
        NeighborPort.mk networkKey mac f.ip.text f.port tsUs (f.banner bannerGrab)).filter
          fun p => p.banner.isSome).length =
      openPorts.countP fun f => f.kept arp target && (f.banner bannerGrab).isSome := by
  induction openPorts with
  | nil => rfl
  | cons f rest ih =>
    have kept := f.isSome_owner entries target
    cases owner : f.owner found target with
    | none =>
      rw [owner] at kept
      rw [List.filterMap_cons_none (by rw [owner]; rfl), ih,
        List.countP_cons_of_neg (by rw [← kept]; simp)]
    | some mac =>
      rw [owner] at kept
      rw [List.filterMap_cons_some (by rw [owner]; rfl), List.filter_cons, List.countP_cons, ← ih,
        ← kept]
      cases (f.banner bannerGrab).isSome <;> simp

/-- Open ports listed once each have no more banners than were read. -/
theorem countP_banner_le {openPorts : List PortFinding} (bg : BannerGrabOutcome)
    (apart : (openPorts.map fun f => (f.ip, f.port)).Nodup) (keep : PortFinding → Bool) :
    (openPorts.countP fun f => keep f && (f.banner (some bg)).isSome) ≤ bg.banners.length := by
  have heard : ∀ f ∈ openPorts.filter (fun f => keep f && (f.banner (some bg)).isSome),
      (f.ip, f.port) ∈ bg.banners.map fun b => (b.ip, b.port) := by
    intro f mem
    have read := (List.mem_filter.mp mem).2
    rw [Bool.and_eq_true] at read
    obtain ⟨banner, read⟩ := Option.isSome_iff_exists.mp read.2
    obtain ⟨b, found, rfl⟩ := Option.map_eq_some_iff.mp read
    have same := List.find?_some found
    simp only [decide_eq_true_eq] at same
    refine List.mem_map.mpr ⟨b, List.mem_of_find?_eq_some found, ?_⟩
    rw [same.1, same.2]
  have once := apart.sublist ((List.filter_sublist
    (p := fun f => keep f && (f.banner (some bg)).isSome)).map fun f => (f.ip, f.port))
  have within := (@List.subperm_of_subset _ _ (bg.banners.map fun b => (b.ip, b.port)) once (by
    intro key mem
    obtain ⟨f, kept, rfl⟩ := List.mem_map.mp mem
    exact heard f kept)).length_le
  rw [List.length_map, List.length_map] at within
  rwa [List.countP_eq_length_filter]

/-- The report claims only what the scan did exactly when every entry of the cache whose MAC has a
named entry has the name of the first such one, and no more of the open ports that a row keeps have
a banner than banners were read. -/
theorem composeScanReport_honest_iff (tsUs : Int) (networkKey : Option String) (iface : String)
    (sweep : SweepStats) {arp : List NeighborObs}
    (cache : ∀ n ∈ arp, n.source = .arp ∧ n.hostname = none) (mdns : MdnsOutcome)
    (portScan : Option PortScanOutcome) (bannerGrab : Option BannerGrabOutcome)
    (target : Option IpAddr) :
    (composeScanReport tsUs networkKey iface sweep arp mdns portScan bannerGrab target).Honest sweep
        arp mdns ((portScan.map PortScanOutcome.openPorts).getD []) bannerGrab target ↔
      (∀ n ∈ arp, ∀ m, mdns.firstNamed arp n.mac = some m → mdns.nameOf n.ip = mdns.nameOf m.ip) ∧
        ∀ bg ∈ bannerGrab, (((portScan.map PortScanOutcome.openPorts).getD []).countP fun f =>
          f.kept arp target && (f.banner bannerGrab).isSome) ≤ bg.banners.length := by
  generalize made : composeScanReport tsUs networkKey iface sweep arp mdns portScan bannerGrab
    target = r
  generalize openPorts : (portScan.map PortScanOutcome.openPorts).getD [] = ports
  have found : r.found = (sweep.mark arp).map
      (NeighborObs.nameFrom (joinNamesOntoArp (sweep.mark arp) mdns)) := by rw [← made]; rfl
  have rows : r.ports = ports.filterMap fun f => (f.owner r.found target).map fun mac =>
      NeighborPort.mk networkKey mac f.ip.text f.port tsUs (f.banner bannerGrab) := by
    rw [← made, ← openPorts]
    rfl
  have entries : r.found.map (fun n => (n.mac, n.ip)) = arp.map fun n => (n.mac, n.ip) := by
    rw [found, List.map_map, ← sweep.address_mark arp]
    exact List.map_congr_left fun n _ => address_nameFrom _ n
  have grabbed : r.grabbed = ports.countP fun f =>
      f.kept arp target && (f.banner bannerGrab).isSome := by
    unfold ComposedReport.grabbed
    rw [rows]
    exact length_grabbed entries bannerGrab target networkKey tsUs ports
  have hostnames := hostnames_own_iff sweep mdns fun n mem => (cache n mem).2
  rw [← found] at hostnames
  constructor
  · intro honest
    refine ⟨hostnames.mp honest.hostnames, fun bg ran => ?_⟩
    have account := honest.banners bg ran
    unfold notPersisted at account
    omega
  · rintro ⟨names, banners⟩
    refine ⟨entries, hostnames.mpr names, ?_, ?_, ?_, ?_⟩
    · intro n mem swept
      rw [found] at mem
      obtain ⟨k, marked, rfl⟩ := List.mem_map.mp mem
      obtain ⟨m, cached, -, -, -, source⟩ := sweep.mem_mark arp marked
      rcases source with same | ⟨-, ran⟩
      · have cached := (cache m cached).1
        rw [← same, source_nameFrom swept] at cached
        cases cached
      · exact ran
    · refine ⟨ports.map fun f => (f.owner r.found target).map fun mac =>
        ⟨networkKey, mac, f.ip.text, f.port, tsUs, f.banner bannerGrab⟩, ?_, ?_⟩
      · delta List.reduceOption
        rw [rows, List.filterMap_map]
        rfl
      · rw [List.forall₂_map_right_iff, List.forall₂_same]
        intro f _
        exact f.rowIs_row r.found bannerGrab target networkKey tsUs
    · have fewer : r.ports.length ≤ ports.length := by
        rw [rows]
        exact List.length_filterMap_le _ _
      unfold notPersisted
      omega
    · intro bg ran
      have fewer := banners bg ran
      unfold notPersisted
      omega

/-- A router that answers for two addresses, one of which mDNS has named. -/
def proxyArp : List NeighborObs :=
  [⟨"02:00:5e:00:00:01", "10.0.0.5", .arp, none, .unknown⟩,
    ⟨"02:00:5e:00:00:01", "10.0.0.6", .arp, none, .unknown⟩]

def printerNamed : MdnsOutcome :=
  ⟨fun ip => if ip.text = "10.0.0.5" then some "printer.local." else none, 1, 4000⟩

theorem scan_report_borrows_a_name :
    (composeScanReport 7 none "en0" ⟨"10.0.0.0/24", 254, 254, 900, none⟩ proxyArp printerNamed none
        none none).found.map (fun n => (n.ip, n.hostname)) =
      [("10.0.0.5", some "printer.local."), ("10.0.0.6", some "printer.local.")] ∧
    printerNamed.nameOf "10.0.0.6" = none ∧
    ¬ (composeScanReport 7 none "en0" ⟨"10.0.0.0/24", 254, 254, 900, none⟩ proxyArp printerNamed none
        none none).Honest ⟨"10.0.0.0/24", 254, 254, 900, none⟩ proxyArp printerNamed [] none none := by
  refine ⟨by decide, by decide, fun honest => ?_⟩
  have own := honest.hostnames
    ⟨"02:00:5e:00:00:01", "10.0.0.6", .mdns, some "printer.local.", .unknown⟩ (.tail _ (.head _))
    "printer.local." rfl
  revert own
  decide

/-- A printer with a name and an open port that told its banner, and a host that did not answer. -/
def printerAndHost : List NeighborObs :=
  [⟨"02:00:5e:00:00:01", "10.0.0.5", .arp, none, .unknown⟩,
    ⟨"02:00:5e:00:00:02", "10.0.0.6", .arp, none, .unknown⟩]

def printerIp : IpAddr := .v4 (Vector.ofFn fun i => [10, 0, 0, 5].getD i 0)

theorem composeScanReport_honest_iff_printerAndHost :
    (composeScanReport 7 none "en0" ⟨"10.0.0.0/24", 254, 254, 900, none⟩ printerAndHost printerNamed
        (some ⟨[⟨printerIp, 80⟩], 2, 12, 300⟩) (some ⟨[⟨printerIp, 80, "Server: ipp"⟩], 1, 50⟩)
        none).Honest
      ⟨"10.0.0.0/24", 254, 254, 900, none⟩ printerAndHost printerNamed [⟨printerIp, 80⟩]
        (some ⟨[⟨printerIp, 80, "Server: ipp"⟩], 1, 50⟩) none := by
  have cache : ∀ n ∈ printerAndHost, n.source = .arp ∧ n.hostname = none := by
    intro n mem
    rcases List.mem_pair.mp mem with rfl | rfl
    · exact ⟨rfl, rfl⟩
    · exact ⟨rfl, rfl⟩
  refine (composeScanReport_honest_iff 7 none "en0" _ cache printerNamed _ _ none).mpr ⟨?_, ?_⟩
  · intro n mem m first
    have inside : m ∈ printerAndHost := List.mem_of_find?_eq_some first
    have same := List.find?_some first
    simp only [decide_eq_true_eq] at same
    rcases List.mem_pair.mp mem with rfl | rfl
    · rcases List.mem_pair.mp inside with rfl | rfl
      · rfl
      · exact absurd same.1 (by decide)
    · rcases List.mem_pair.mp inside with rfl | rfl
      · exact absurd same.1 (by decide)
      · rfl
  · intro bg ran
    cases ran
    exact Nat.le_trans List.countP_le_length (Nat.le_refl 1)

end NetObserver
