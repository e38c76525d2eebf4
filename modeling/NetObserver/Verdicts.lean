import Mathlib.Data.List.Basic

/-! The verdict tokens a sample carries. -/

namespace NetObserver

/-- The gateway echo's verdict; `skip` is a withheld probe and no measurement. -/
inductive GwVerdict where
  | ok
  | fail
  | noGw
  | skip
deriving DecidableEq

def GwVerdict.token : GwVerdict → String
  | .ok => "OK"
  | .fail => "FAIL"
  | .noGw => "NOGW"
  | .skip => "SKIP"

inductive TcpVerdict where
  | ok
  | fail
  | skip
deriving DecidableEq

inductive PortalVerdict where
  | ok
  | portal
  | skip
deriving DecidableEq

inductive WifiVerdict where
  | ok
  | skip
deriving DecidableEq

inductive NeighborsVerdict where
  | ok
  | skip
deriving DecidableEq

inductive AirVerdict where
  | ok
  | skip
deriving DecidableEq

inductive ConnectionsVerdict where
  | ok
  | skip
deriving DecidableEq

inductive NeighborSource where
  | arp
  | ndp
  | sweep
  | mdns
  | announce
deriving DecidableEq

inductive AnnounceKind where
  | mdns
  | ssdp
  | dhcp
deriving DecidableEq

inductive DnsVerdict where
  | ok
  | fakeIp
  | empty
  | servFail
  | nxDomain
  | timeout
  | skip
deriving DecidableEq

inductive LinkMedium where
  | wifi
  | wired
deriving DecidableEq

inductive SingboxLogClass where
  | noRoute
  | unreachable
  | dialTimeout
  | canceled
  | noDefaultIface
  | dnsServersFailed
  | dnsExchangeFailed
  | dnsBadPacket
  | icmpReplyTimeout
  | streamClosed
  | icmpUnsupported
  | tlsCertMismatch
  | other
  | started
  | defaultIfaceUpdated
  | unreadable
deriving DecidableEq

def SingboxLogClass.asStr : SingboxLogClass → String
  | .noRoute => "no-route"
  | .unreachable => "unreachable"
  | .dialTimeout => "dial-timeout"
  | .canceled => "canceled"
  | .noDefaultIface => "no-default-iface"
  | .dnsServersFailed => "dns-servers-failed"
  | .dnsExchangeFailed => "dns-exchange-failed"
  | .dnsBadPacket => "dns-bad-packet"
  | .icmpReplyTimeout => "icmp-reply-timeout"
  | .streamClosed => "stream-closed"
  | .icmpUnsupported => "icmp-unsupported"
  | .tlsCertMismatch => "tls-cert-mismatch"
  | .other => "other"
  | .started => "started"
  | .defaultIfaceUpdated => "default-iface-updated"
  | .unreadable => "unreadable"

inductive ConnectionScope where
  | internal
  | lan
  | external
deriving DecidableEq

inductive RoleConfidence where
  | low
  | medium
  | high
deriving DecidableEq

inductive NeighborRole where
  | gateway
  | infra (confidence : RoleConfidence)
  | host
  | unknown
deriving DecidableEq

/-- The egress tier the operator chose; the passive one withholds every periodic probe. -/
inductive ProbingTier where
  | passive
  | active
deriving DecidableEq

inductive EmissionClass where
  | gatewayEcho
  | directProbe
  | lanProbe
  | tunProbe
  | endpointProbe
  | heldStream
  | dnsQuery
  | captiveProbe

def ProbingTier.emits : ProbingTier → EmissionClass → Bool
  | .passive, _ => false
  | .active, _ => true

end NetObserver
