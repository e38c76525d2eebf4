import NetObserver.EgressFold
import NetObserver.ScanReport
import NetObserver.SweepHosts

/-! A neighbour scan as the daemon admits and runs it: the sweep, the port rung and the banner rung,
with the probes each puts on a socket. -/

namespace NetObserver

structure ScanOptions where
  ports : Bool
  banners : Bool
  cve : Bool
  target : Option IpAddr
  slow : Bool
  sweepMax : Option (BitVec 32)

/-- A datagram or an attempt to connect, and the interface its socket is pinned to. -/
structure Probe where
  ip : IpAddr
  port : Nat
  via : Option String
deriving DecidableEq

inductive TcpRung where
  | ports
  | banners

/-- What the system answers to the calls of a scan, and how long the rungs take. `greeting` is the
first readable line that a connected port sends. -/
structure SocketCalls where
  bindUdp : Except String Unit
  pinUdp : Bool
  sendTo : Ipv4Addr → Bool
  newTcp : TcpRung → IpAddr → Nat → Bool
  pinTcp : TcpRung → IpAddr → Nat → Bool
  connect : TcpRung → IpAddr → Nat → Bool
  greeting : IpAddr → Nat → Option String
  sweepMs : Nat
  portsMs : Nat
  bannersMs : Nat

def sweepPort : Nat := 9

def commonPorts : List Nat :=
  [21, 22, 23, 25, 53, 80, 110, 139, 143, 443, 445, 465, 587, 993, 995, 1433, 1883, 3306, 3389,
    5432, 5900, 6379, 8000, 8080, 8443, 9000, 9200]

def IpAddr.isIpv4 : IpAddr → Bool
  | v4 _ => true
  | v6 _ => false

def SweepStats.refuse (target : String) (durationMs : Nat) (reason : String) : SweepStats :=
  ⟨target, 0, 0, durationMs, some reason⟩

/-- `probe_addrs_blocking`: one datagram an address, all on one pinned socket. -/
def probeAddrs (os : SocketCalls) (addrs : List Ipv4Addr) (targetLabel ifaceName : String) :
    SweepStats × List Probe :=
  match os.bindUdp with
  | .error e => (.refuse targetLabel os.sweepMs ("no socket: " ++ e), [])
  | .ok () =>
    if !os.pinUdp then
      (.refuse targetLabel os.sweepMs
        ("could not pin the probe to " ++ ifaceName ++ "; the tunnel would have taken it"), [])
    else
      (⟨targetLabel, (addrs.filter os.sendTo).length, addrs.length, os.sweepMs, none⟩,
        addrs.map fun a => ⟨.v4 a, sweepPort, some ifaceName⟩)

def singleProbe (os : SocketCalls) (ifaceName : String) (target : Ipv4Addr) :
    SweepStats × List Probe :=
  probeAddrs os [target] (IpAddr.v4 target).text ifaceName

/-- The list of a subnet's hosts is there for every mask and ceiling. -/
theorem hostAddrs_isSome (i : Ipv4Iface) (cap : Option (BitVec 32)) :
    (i.hostAddrs cap).isSome = true := by
  obtain ⟨result, made, _⟩ := hostAddrs_decided i cap
  rw [made]
  rfl

def sweepProbe (os : SocketCalls) (i : Ipv4Iface) (ifaceName : String)
    (cap : Option (BitVec 32)) : SweepStats × List Probe :=
  match (i.hostAddrs cap).get (hostAddrs_isSome i cap) with
  | .error reason => (.refuse i.cidr os.sweepMs reason, [])
  | .ok addrs => probeAddrs os addrs i.cidr ifaceName

/-- What a TCP probe of a rung does before it connects: it goes on, on a socket pinned or not. An
IPv6 socket is never pinned, nor any where the interface has no name. -/
def openSocket (os : SocketCalls) (rung : TcpRung) (ip : IpAddr) (port : Nat)
    (ifaceName : String) : Option (Option String) :=
  if !os.newTcp rung ip port then none
  else if ip.isIpv4 && ifaceName != "" then
    if os.pinTcp rung ip port then some (some ifaceName) else none
  else some none

def connectOpen (os : SocketCalls) (ip : IpAddr) (port : Nat) (ifaceName : String) :
    Bool × List Probe :=
  match openSocket os .ports ip port ifaceName with
  | none => (false, [])
  | some via => (os.connect .ports ip port, [⟨ip, port, via⟩])

def PortFinding.before (a b : PortFinding) : Bool :=
  decide (a.ip.order < b.ip.order ∨ a.ip.order = b.ip.order ∧ a.port ≤ b.port)

/-- The workers share one list of addresses and ports, and the findings are sorted at the end. -/
def portScan (os : SocketCalls) (targets : List IpAddr) (ports : List Nat) (ifaceName : String) :
    PortScanOutcome × List Probe :=
  let work := targets.flatMap fun ip => ports.map fun port => (ip, port)
  let found := work.filter fun w => (connectOpen os w.1 w.2 ifaceName).1
  ({ openPorts := (found.map fun w => ⟨w.1, w.2⟩).mergeSort PortFinding.before
     hosts := targets.length
     portsPerHost := ports.length
     durationMs := os.portsMs },
    work.flatMap fun w => (connectOpen os w.1 w.2 ifaceName).2)

/-- The line of a port that let itself be connected to; a request goes out first where the port
waits for one. -/
def grabBanner (os : SocketCalls) (ip : IpAddr) (port : Nat) (ifaceName : String) :
    Option String × List Probe :=
  match openSocket os .banners ip port ifaceName with
  | none => (none, [])
  | some via =>
    (if os.connect .banners ip port then os.greeting ip port else none, [⟨ip, port, via⟩])

def BannerFinding.before (a b : BannerFinding) : Bool :=
  decide (a.ip.order < b.ip.order ∨ a.ip.order = b.ip.order ∧ a.port ≤ b.port)

def bannerGrab (os : SocketCalls) (openPorts : List PortFinding) (ifaceName : String) :
    BannerGrabOutcome × List Probe :=
  let heard := openPorts.filterMap fun f =>
    (grabBanner os f.ip f.port ifaceName).1.map fun banner => BannerFinding.mk f.ip f.port banner
  ({ banners := heard.mergeSort BannerFinding.before
     probed := openPorts.length
     durationMs := os.bannersMs },
    openPorts.flatMap fun f => (grabBanner os f.ip f.port ifaceName).2)

/-- What a scan reads of the host: the interface and its subnet, the gateway's MAC, the ARP cache
after the sweep and the names that mDNS told. -/
structure ScanFacts where
  iface : String
  ipv4 : Option Ipv4Iface
  networkKey : Option String
  arp : List NeighborObs
  mdns : MdnsOutcome

/-- The rungs of one scan and the probes of each. -/
structure RungsRun where
  sweep : SweepStats
  arp : List NeighborObs
  mdns : MdnsOutcome
  ports : Option PortScanOutcome
  banners : Option BannerGrabOutcome
  datagrams : List Probe
  connects : List Probe
  grabs : List Probe

/-- The one address asked for, or the ones the cache holds. -/
def ScanOptions.targets (opts : ScanOptions) (facts : ScanFacts) : List IpAddr :=
  match opts.target with
  | some ip => [ip]
  | none => facts.arp.filterMap fun n => IpAddr.parse n.ip

def sweepRung (os : SocketCalls) (facts : ScanFacts) (opts : ScanOptions) :
    SweepStats × List Probe :=
  match opts.target with
  | some (.v4 v4) => singleProbe os facts.iface v4
  | some (.v6 v6) =>
    (.refuse (IpAddr.v6 v6).text 0
      "IPv6 targets are not ARP-resolvable; ports/banners/cve still ran", [])
  | none =>
    match facts.ipv4 with
    | some ipv4 => sweepProbe os ipv4 facts.iface (sweepMaxCap opts.sweepMax)
    | none => (.refuse facts.iface 0 "no IPv4 subnet found on this interface to sweep", [])

/-- The rungs of `SystemScanner::scan`. -/
def runRungs (os : SocketCalls) (facts : ScanFacts) (opts : ScanOptions) : RungsRun :=
  let sweep := sweepRung os facts opts
  let ports :=
    if opts.ports then some (portScan os (opts.targets facts) commonPorts facts.iface) else none
  let banners :=
    if opts.banners then ports.map fun ps => bannerGrab os ps.1.openPorts facts.iface else none
  { sweep := sweep.1
    arp := opts.target.elim facts.arp fun ip => facts.arp.filter fun n => n.ip == ip.text
    mdns := if opts.target.isSome then ⟨fun _ => none, 0, 0⟩ else facts.mdns
    ports := ports.map Prod.fst
    banners := banners.map Prod.fst
    datagrams := sweep.2
    connects := (ports.map Prod.snd).getD []
    grabs := (banners.map Prod.snd).getD [] }

/-- Not an address that is no host's on any segment. -/
def IpAddr.scannable (ip : IpAddr) : Bool :=
  !(ip.isLoopback || ip.isMulticast || ip.isUnspecified || ip.isBroadcast)

/-- What of a request can run: banners need ports, and the CVEs banners and a snapshot. -/
def ScanOptions.effective (requested : ScanOptions) (snapshotAvailable : Bool) : ScanOptions :=
  let banners := requested.banners && requested.ports
  { requested with
    banners := banners
    cve := requested.cve && banners && snapshotAvailable }

/-- The rungs a request loses, each with its reason. -/
def ScanOptions.dropped (requested : ScanOptions) (snapshotAvailable : Bool) : List String :=
  let effective := requested.effective snapshotAvailable
  (if requested.banners && !effective.banners then
    ["banners (needs the ports rung, which is not effective this run)"] else []) ++
  if requested.cve && !effective.cve then
    let why :=
      if !effective.banners then "needs the banners rung, which is not effective this run"
      else "no CVE snapshot; set collectors.neighbors.cve_snapshot_dir to a provisioned directory"
    ["cve (" ++ why ++ ")"]
  else []

/-- What `scan_now` refuses before a packet is sent. -/
def admitScan (observing scannerThere : Bool) (requested : ScanOptions) : Except String Unit :=
  if !observing then .error "observation is paused; resume before scanning"
  else
    match requested.target.filter fun ip => !ip.scannable with
    | some ip =>
      .error (ip.text ++
        " is not a scannable host (loopback, multicast, unspecified, or broadcast)")
    | none =>
      if !scannerThere then .error "neighbour scanning not available" else .ok ()

/-- The run of an admitted scan; `facts` is none where no interface can be told. -/
def scanNow (os : SocketCalls) (facts : Option ScanFacts) (observing scannerThere : Bool)
    (snapshotAvailable : Bool) (requested : ScanOptions) : Except String RungsRun :=
  (admitScan observing scannerThere requested).bind fun _ =>
    match facts with
    | none => .error "no interface with an IPv4 subnet to scan"
    | some facts => .ok (runRungs os facts (requested.effective snapshotAvailable))

end NetObserver
