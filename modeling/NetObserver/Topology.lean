import NetObserver.Cdp

/-! Uplinks learned from LLDP and CDP frames: one captured frame as one link, or none. -/

namespace NetObserver

open ByteOrder Lldp

def ethertypeLldp : Nat := 0x88CC

/-- The LLC and SNAP header in front of a CDP payload. -/
def cdpSnap : List UInt8 := [0xAA, 0xAA, 0x03, 0x00, 0x00, 0x0C, 0x20, 0x00]

def ethHeaderLen : Nat := 14

inductive LearnedVia where
  | lldp
  | cdp

structure TopologyLink where
  iface : String
  remoteChassis : String
  remotePort : String
  remoteSystemName : Option String
  capabilities : String
  learnedVia : LearnedVia
  tsUs : Int

def TopologyLink.sameKey (a b : TopologyLink) : Bool :=
  a.iface == b.iface && a.remoteChassis == b.remoteChassis && a.remotePort == b.remotePort

def hex (bytes : List UInt8) : String := ":".intercalate (bytes.map fun b => hexPair b.toNat)

/-- The decoder's rendering, else the raw bytes in hex. -/
def renderId (rendered : Option String) (raw : List UInt8) : Option String :=
  (rendered.filter (· ≠ "")).or (if raw.isEmpty then none else some (hex raw))

def capsTokens (set : CapabilitySet) : String :=
  ",".intercalate <| ([(set.bridge, "bridge"), (set.wlanAp, "wlan_ap"), (set.router, "router"),
    (set.repeater, "repeater"), (set.telephone, "telephone"), (set.docsis, "docsis"),
    (set.station, "station"), (set.other, "other")].filter (·.1)).map (·.2)

def linkFromLldp (pdu : List UInt8) (iface : String) (tsUs : Int) : Option TopologyLink := do
  let frame ← (parseLldp pdu).toOption
  let remoteChassis ← renderId frame.chassisId.rendered frame.chassisId.raw
  return {
    iface, remoteChassis, tsUs
    remotePort := (renderId frame.portId.rendered frame.portId.raw).getD "?"
    remoteSystemName := frame.systemName
    capabilities := (frame.capabilities.map fun c => capsTokens c.enabled).getD ""
    learnedVia := .lldp }

/-- The Device ID is the remote's identity and its name. -/
def linkFromCdp (payload : List UInt8) (iface : String) (tsUs : Int) : Option TopologyLink := do
  let frame ← (parseCdp payload).toOption
  let remoteChassis ← frame.deviceId.filter (· ≠ "")
  return {
    iface, remoteChassis, tsUs
    remotePort := (frame.portId.filter (· ≠ "")).getD "?"
    remoteSystemName := some remoteChassis
    capabilities := (frame.capabilities.map fun c => capsTokens c.enabled).getD ""
    learnedVia := .cdp }

/-- The EtherType slot and what is behind it, one VLAN tag peeled. -/
def etherPayload (eth : List UInt8) : Nat × List UInt8 :=
  let slot := beNat ((eth.drop 12).take 2)
  if slot = 0x8100 ∧ ethHeaderLen + 4 ≤ eth.length then
    (beNat ((eth.drop 16).take 2), eth.drop (ethHeaderLen + 4))
  else (slot, eth.drop ethHeaderLen)

/-- One captured frame, from its destination address on, as a link. -/
def linkFromFrame (eth : List UInt8) (iface : String) (tsUs : Int) : Option TopologyLink :=
  if eth.length < ethHeaderLen then none
  else
    let (ethertype, payload) := etherPayload eth
    if ethertype = ethertypeLldp then linkFromLldp payload iface tsUs
    else if cdpSnap.length ≤ payload.length ∧ payload.take cdpSnap.length = cdpSnap then
      linkFromCdp (payload.drop cdpSnap.length) iface tsUs
    else none

end NetObserver
