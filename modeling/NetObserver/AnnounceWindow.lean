import Std.Data.TreeMap.Lemmas
import NetObserver.Frame
import NetObserver.Machine
import NetObserver.Samples

/-! One flush window of the announce listener: what the frames heard in it fold into. -/

namespace NetObserver

open Machine

structure MdnsFacts where
  hostnames : List String
  services : List (String × Option String)
  proxied : Nat

structure SsdpFacts where
  service : String
  detail : Option String

inductive DhcpOp where
  | request
  | reply

@[ext]
structure DhcpMessage where
  op : DhcpOp
  chaddr : MacAddr
  ciaddr : Option Ipv4Addr
  yiaddr : Option Ipv4Addr
  messageType : Option String
  hostname : Option String
  vendorClass : Option String
  serverId : Option Ipv4Addr

/-- The decoders a window reads frames and payloads through. -/
structure Decoders where
  frame : List UInt8 → Option Frame
  mdns : List UInt8 → IpAddr → Option MdnsFacts
  ssdp : List UInt8 → Option SsdpFacts
  dhcp : List UInt8 → Option DhcpMessage

def mdnsPort : Nat := 5353
def ssdpPort : Nat := 1900
def dhcpServerPort : Nat := 67
def dhcpClientPort : Nat := 68

def dhcpServerService : String := "dhcp-server"
def dhcpVendorClassService : String := "vendor-class"

def maxDevices : Nat := 512
def maxIpsPerDevice : Nat := 8
def maxServicesPerDevice : Nat := 64
def maxPendingNames : Nat := 512

structure Device where
  ips : List IpAddr
  hostname : Option String
  services : Nat

structure Announced where
  ips : List IpAddr
  kind : AnnounceKind
  detail : Option String

structure ServiceKey where
  mac : MacAddr
  service : String
deriving DecidableEq

instance : Ord ServiceKey := ⟨compareLex (compareOn ServiceKey.mac) (compareOn ServiceKey.service)⟩

instance : Std.TransOrd ServiceKey :=
  inferInstanceAs (Std.TransCmp (compareLex (compareOn ServiceKey.mac) (compareOn ServiceKey.service)))

instance : Std.LawfulEqOrd ServiceKey where
  eq_of_compare {a b} same := by
    have both : compareOn ServiceKey.mac a b = .eq ∧ compareOn ServiceKey.service a b = .eq :=
      compareLex_eq_eq.mp same
    have mac : a.mac = b.mac := Std.LawfulEqOrd.eq_of_compare both.1
    have service : a.service = b.service := Std.LawfulEqOrd.eq_of_compare both.2
    cases a
    cases b
    cases mac
    cases service
    rfl

/-- The counts are 32 bits wide and stay at their largest value. -/
structure Window where
  ownMac : Option MacAddr
  gatewayMac : Option MacAddr
  networkKey : Option String
  iface : Option String
  heard : Nat
  own : Nat
  undecoded : Nat
  dropped : Nat
  devices : Std.TreeMap MacAddr Device
  services : Std.TreeMap ServiceKey Announced
  pendingNames : Std.TreeMap MacAddr String

/-- Append the address unless it is there; `false` where the cap refuses it. -/
def pushCapped (ips : List IpAddr) (ip : IpAddr) (cap : Nat) : List IpAddr × Bool :=
  if ips.contains ip then (ips, true)
  else if cap ≤ ips.length then (ips, false)
  else (ips ++ [ip], true)

def addressRank : IpAddr → Nat
  | ip@(.v4 _) => if ip.isLinkLocal then 2 else 0
  | ip@(.v6 _) => if ip.isLinkLocal then 3 else 1

/-- A routable address before a link-local one, version 4 before 6, of equals the first seen. -/
def preferred : List IpAddr → Option IpAddr
  | [] => none
  | ip :: rest =>
    match preferred rest with
    | some other => if addressRank ip ≤ addressRank other then some ip else some other
    | none => some ip

def addressable (ip : IpAddr) : Bool :=
  !ip.isUnspecified && !ip.isMulticast && !ip.isBroadcast && !ip.isLoopback

namespace Window

def new (ownMac : Option MacAddr) (networkKey iface : Option String) : Window where
  ownMac := ownMac
  gatewayMac := networkKey.bind macOctets
  networkKey := networkKey
  iface := iface
  heard := 0
  own := 0
  undecoded := 0
  dropped := 0
  devices := ∅
  services := ∅
  pendingNames := ∅

def isOwn (w : Window) (mac : MacAddr) : Bool := w.ownMac == some mac

def drop (w : Window) (n : Nat) : Window := { w with dropped := satAddU32 w.dropped n }

def setDevice (w : Window) (mac : MacAddr) (dev : Device) : Window :=
  { w with devices := w.devices.insert mac dev }

/-- The slot of a device, made if there is room; none, counted as dropped, if there is not. -/
def device (w : Window) (mac : MacAddr) : Window × Option Device :=
  if !isUnicast mac then (w, none)
  else
    match w.devices[mac]? with
    | some dev => (w, some dev)
    | none =>
      if maxDevices ≤ w.devices.size then (w.drop 1, none)
      else (w.setDevice mac ⟨[], none, 0⟩, some ⟨[], none, 0⟩)

def sight (w : Window) (mac : MacAddr) (ip : IpAddr) : Window :=
  match w.device mac with
  | (w, none) => w
  | (w, some dev) =>
    let (ips, kept) := pushCapped dev.ips ip maxIpsPerDevice
    let sighted := w.setDevice mac { dev with ips := ips }
    if kept then sighted else sighted.drop 1

/-- A name already learned in this window is kept. -/
def name (w : Window) (mac : MacAddr) (hostname : String) : Window :=
  match w.device mac with
  | (w, none) => w
  | (w, some dev) => w.setDevice mac { dev with hostname := some (dev.hostname.getD hostname) }

/-- The service's entry with one more address; its first kind and detail stay. -/
def recordService (w : Window) (key : ServiceKey) (ip : Option IpAddr) (kind : AnnounceKind)
    (detail : Option String) : Window :=
  let slot := w.services[key]?.getD ⟨[], kind, detail⟩
  match ip with
  | none => { w with services := w.services.insert key slot }
  | some ip =>
    let (ips, kept) := pushCapped slot.ips ip maxIpsPerDevice
    let recorded := { w with services := w.services.insert key { slot with ips := ips } }
    if kept then recorded else recorded.drop 1

def announce (w : Window) (mac : MacAddr) (ip : Option IpAddr) (service : String)
    (kind : AnnounceKind) (detail : Option String) : Window :=
  let key : ServiceKey := ⟨mac, service⟩
  let isNew := !w.services.contains key
  match w.device mac with
  | (w, none) => w
  | (w, some dev) =>
    if isNew then
      if maxServicesPerDevice ≤ dev.services then w.drop 1
      else (w.setDevice mac { dev with services := dev.services + 1 }).recordService key ip kind detail
    else w.recordService key ip kind detail

/-- Hold a name until the acknowledgement that gives its client an address. -/
def rememberName (w : Window) (client : MacAddr) (hostname : String) : Window :=
  if !isUnicast client || w.pendingNames.contains client then w
  else if maxPendingNames ≤ w.pendingNames.size then w.drop 1
  else { w with pendingNames := w.pendingNames.insert client hostname }

def absorbMdns (c : Decoders) (w : Window) (srcMac : MacAddr) (srcIp : IpAddr)
    (payload : List UInt8) : Window :=
  match c.mdns payload srcIp with
  | none => w
  | some facts =>
    let named := match facts.hostnames.head? with
      | some hostname => w.name srcMac hostname
      | none => w
    let announced := facts.services.foldl
      (fun w service => w.announce srcMac (some srcIp) service.1 .mdns service.2) named
    announced.drop facts.proxied

def absorbSsdp (c : Decoders) (w : Window) (srcMac : MacAddr) (srcIp : IpAddr)
    (payload : List UInt8) : Window :=
  match c.ssdp payload with
  | none => w
  | some facts => w.announce srcMac (some srcIp) facts.service .ssdp facts.detail

def absorbRequest (w : Window) (msg : DhcpMessage) : Window :=
  if w.isOwn msg.chaddr then w
  else
    let addr := msg.ciaddr.map IpAddr.v4
    let known := match addr, msg.hostname with
      | some ip, some hostname => (w.sight msg.chaddr ip).name msg.chaddr hostname
      | some ip, none => w.sight msg.chaddr ip
      | none, some hostname => w.rememberName msg.chaddr hostname
      | none, none => w
    match msg.vendorClass with
    | some vendorClass =>
      known.announce msg.chaddr addr dhcpVendorClassService .dhcp (some vendorClass)
    | none => known

def absorbReply (w : Window) (srcMac : MacAddr) (srcIp : IpAddr) (msg : DhcpMessage) : Window :=
  let server := w.announce srcMac ((msg.serverId.map IpAddr.v4).or (some srcIp)) dhcpServerService
    .dhcp msg.messageType
  match msg.yiaddr with
  | none => server
  | some ip =>
    if msg.messageType = some "ack" && !server.isOwn msg.chaddr then
      let sighted := server.sight msg.chaddr (.v4 ip)
      match sighted.pendingNames[msg.chaddr]? with
      | some hostname =>
        { sighted with pendingNames := sighted.pendingNames.erase msg.chaddr }.name msg.chaddr
          hostname
      | none => sighted
    else server

def absorbDhcp (c : Decoders) (w : Window) (srcMac : MacAddr) (srcIp : IpAddr)
    (payload : List UInt8) : Window :=
  match c.dhcp payload with
  | none => w
  | some msg =>
    match msg.op with
    | .request => w.absorbRequest msg
    | .reply => w.absorbReply srcMac srcIp msg

/-- What a frame that is not this machine's own tells. -/
def absorbHeard (c : Decoders) (w : Window) (frame : Frame) : Window :=
  let fromGateway := some frame.srcMac == w.gatewayMac
  match frame.heard with
  | .arp senderMac senderIp reply =>
    if !w.isOwn senderMac && !(IpAddr.v4 senderIp).isUnspecified && !(reply && fromGateway) then
      w.sight senderMac (.v4 senderIp)
    else w
  | .udp srcIp srcPort dstPort payload =>
    let sighted := if addressable srcIp && !fromGateway then w.sight frame.srcMac srcIp else w
    let onPort (port : Nat) : Bool := srcPort == port || dstPort == port
    if onPort mdnsPort then sighted.absorbMdns c frame.srcMac srcIp payload
    else if onPort ssdpPort then sighted.absorbSsdp c frame.srcMac srcIp payload
    else if onPort dhcpServerPort || onPort dhcpClientPort then
      sighted.absorbDhcp c frame.srcMac srcIp payload
    else sighted
  | .other => w

def absorb (c : Decoders) (w : Window) (bytes : List UInt8) : Window :=
  let w := { w with heard := satAddU32 w.heard 1 }
  match c.frame bytes with
  | none => { w with undecoded := satAddU32 w.undecoded 1 }
  | some frame =>
    if w.isOwn frame.srcMac then { w with own := satAddU32 w.own 1 }
    else w.absorbHeard c frame

def heardFrames (w : Window) : HeardFrames :=
  ⟨w.heard, w.ownMac.map fun _ => w.own, w.dropped⟩

def isEmpty (w : Window) : Bool := w.heard == 0

def neighborRow (entry : MacAddr × Device) : Option NeighborObs :=
  (preferred entry.2.ips).map fun ip =>
    ⟨macText entry.1, ip.text, .announce, entry.2.hostname, .unknown⟩

def serviceRow (entry : ServiceKey × Announced) : AnnouncedService :=
  ⟨macText entry.1.mac, (preferred entry.2.ips).map IpAddr.text, entry.1.service, entry.2.kind,
    entry.2.detail⟩

/-- The window as one reading; a device without an address has no row. -/
def flush (w : Window) (tsUs : Int) : NeighborsSample where
  tsUs := tsUs
  verdict := .ok
  reason := none
  networkKey := w.networkKey
  iface := w.iface
  neighbors := w.devices.toList.filterMap neighborRow
  services := w.services.toList.map serviceRow
  heard := some w.heardFrames

end Window

end NetObserver
