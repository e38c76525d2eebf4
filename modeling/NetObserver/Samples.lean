import NetObserver.Machine
import NetObserver.Verdicts

/-! What the collectors queue: one record for each kind of reading. -/

namespace NetObserver

open Machine

structure LinkSample where
  tsUs : Int
  gw : GwVerdict
  gwRttMs : Option F64
  direct : TcpVerdict
  directRttMs : Option F64
  dhcpRouter : Option String
  dhcpDns : Option String
  gwArpMac : Option String
  ssid : Option String
  bssid : Option String
  ifMac : Option String
  medium : Option LinkMedium
  leaseStartUs : Option Int
  leaseSecs : Option Nat
  ifMacPrivate : Option Bool
  wifiCapturePresent : Bool
  lanProbed : Option Nat
  lanAlive : Option Nat
  fakeipRouteIf : Option String
  singboxTunIf : Option String
deriving DecidableEq

def LinkSample.gatewayOnly (tsUs : Int) (gw : GwVerdict) : LinkSample where
  tsUs := tsUs
  gw := gw
  gwRttMs := none
  direct := .skip
  directRttMs := none
  dhcpRouter := none
  dhcpDns := none
  gwArpMac := none
  ssid := none
  bssid := none
  ifMac := none
  medium := none
  leaseStartUs := none
  leaseSecs := none
  ifMacPrivate := none
  wifiCapturePresent := false
  lanProbed := none
  lanAlive := none
  fakeipRouteIf := none
  singboxTunIf := none

structure ProxySample where
  tsUs : Int
  serverIp : String
  tcp : TcpVerdict
  rttMs : Option F64
  tunCode : Option Nat
  selector : Option String
  estDirectAlive : Option Bool
  estDirectAgeS : Option Nat
  estTunAlive : Option Bool
  estTunAgeS : Option Nat
  urltestMs : Option Nat
  urltestAtUs : Option Int
  urltestNode : Option String
  urltestAbsentSinceUs : Option Int

/-- A row of one endpoint's probe and nothing else. -/
def ProxySample.probeOnly (tsUs : Int) (serverIp : String) (tcp : TcpVerdict) : ProxySample where
  tsUs := tsUs
  serverIp := serverIp
  tcp := tcp
  rttMs := none
  tunCode := none
  selector := none
  estDirectAlive := none
  estDirectAgeS := none
  estTunAlive := none
  estTunAgeS := none
  urltestMs := none
  urltestAtUs := none
  urltestNode := none
  urltestAbsentSinceUs := none

structure DnsSample where
  tsUs : Int
  probe : String
  server : String
  verdict : DnsVerdict
  ip : Option String
  rttMs : Option F64

structure RouteEvent where
  tsUs : Int
  kind : String
  iface : Option String
  detail : String

structure HostSample where
  tsUs : Int
  load1 : F64
  load5 : F64
  load15 : F64
  diskUsedPct : Option F64
  diskFreeMb : Option Nat
  swapUsedMb : Option Nat

def HostSample.idle (tsUs : Int) : HostSample := ⟨tsUs, .zero, .zero, .zero, none, none, none⟩

structure WifiSample where
  tsUs : Int
  wifi : WifiVerdict
  reason : Option String
  rssiDbm : Option Int
  noiseDbm : Option Int
  snrDb : Option Int
  txRateMbps : Option F64
  phyMode : Option String
  channel : Option Int
  channelWidthMhz : Option Int
  channelBand : Option String

structure NeighborObs where
  mac : String
  ip : String
  source : NeighborSource
  hostname : Option String
  role : NeighborRole

structure AnnouncedService where
  mac : String
  ip : Option String
  service : String
  kind : AnnounceKind
  detail : Option String

structure HeardFrames where
  total : Nat
  own : Option Nat
  dropped : Nat

structure NeighborsSample where
  tsUs : Int
  verdict : NeighborsVerdict
  reason : Option String
  networkKey : Option String
  iface : Option String
  neighbors : List NeighborObs
  services : List AnnouncedService
  heard : Option HeardFrames

/-- A flush of the passive `announce` listener, not a neighbour-cache tick or a scan. -/
def NeighborsSample.isListenerFlush (n : NeighborsSample) : Bool := n.heard.isSome

/-- The row that brackets the listener's end: it counts no frames. -/
def NeighborsSample.isListenerBracket (n : NeighborsSample) : Bool :=
  n.isListenerFlush && n.verdict == .skip

structure AirObservation where
  channel : Option Int
  channelBand : Option String
  channelWidthMhz : Option Int
  phyMode : Option String
  security : Option String
  rssiDbm : Option Int
  noiseDbm : Option Int

structure AirSample where
  tsUs : Int
  air : AirVerdict
  reason : Option String
  aps : List AirObservation

structure ConnectionRow where
  host : Option String
  dstIp : Option String
  dstPort : Option Nat
  process : Option String
  network : String
  chain : Option String
  count : Nat
  upload : Nat
  download : Nat
  scope : ConnectionScope
  iface : Option String

structure ConnectionsSample where
  tsUs : Int
  verdict : ConnectionsVerdict
  rows : List ConnectionRow

structure SingboxLogSample where
  tsUs : Int
  logClass : SingboxLogClass
  count : Nat
  node : Option String
  sampleMessage : Option String

structure PortalSample where
  tsUs : Int
  iface : String
  verdict : PortalVerdict
  loginUrl : Option String
  reason : Option String

inductive Sample where
  | link (l : LinkSample)
  | proxy (p : ProxySample)
  | dns (d : DnsSample)
  | route (r : RouteEvent)
  | host (h : HostSample)
  | wifi (w : WifiSample)
  | neighbors (n : NeighborsSample)
  | air (a : AirSample)
  | connections (c : ConnectionsSample)
  | singboxLog (s : SingboxLogSample)
  | portal (p : PortalSample)

namespace Sample

def tsUs : Sample → Int
  | link l => l.tsUs
  | proxy p => p.tsUs
  | dns d => d.tsUs
  | route r => r.tsUs
  | host h => h.tsUs
  | wifi w => w.tsUs
  | neighbors n => n.tsUs
  | air a => a.tsUs
  | connections c => c.tsUs
  | singboxLog s => s.tsUs
  | portal p => p.tsUs

def isLink : Sample → Bool
  | link _ => true
  | _ => false

/-- The readings of one kind, the accessors' `filter_map` over the buffer. -/
def link? : Sample → Option LinkSample
  | link l => some l
  | _ => none

def proxy? : Sample → Option ProxySample
  | proxy p => some p
  | _ => none

def dns? : Sample → Option DnsSample
  | dns d => some d
  | _ => none

def host? : Sample → Option HostSample
  | host h => some h
  | _ => none

def wifi? : Sample → Option WifiSample
  | wifi w => some w
  | _ => none

def neighbors? : Sample → Option NeighborsSample
  | neighbors n => if n.isListenerFlush then none else some n
  | _ => none

def singboxLog? : Sample → Option SingboxLogSample
  | singboxLog s => some s
  | _ => none

def portal? : Sample → Option PortalSample
  | portal p => some p
  | _ => none

theorem link?_of_not_link {s : Sample} (h : s.isLink = false) : s.link? = none := by
  cases s <;> first | rfl | cases h

theorem exists_link {s : Sample} (h : s.isLink = true) : ∃ l, s = link l := by
  cases s <;> first | exact ⟨_, rfl⟩ | cases h

end Sample

end NetObserver
