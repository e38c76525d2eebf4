import NetObserver.ByteOrder
import NetObserver.Frame

/-! The LLDP decoder: a flat run of TLVs read through a bounds-checked cursor. -/

namespace NetObserver
namespace Lldp

open ByteOrder

inductive LldpError where
  | truncated (context : String) (need left : Nat)
  | missingMandatory (field : String)
  | malformed (context detail : String)
  | empty
deriving DecidableEq

/-- A forward-only cursor, as the bytes not yet consumed. -/
abbrev Reader := List UInt8

namespace Reader

/-- The next `n` bytes, or an error if fewer remain. -/
def take (r : Reader) (n : Nat) (context : String) : Except LldpError (List UInt8 × Reader) :=
  if r.length < n then .error (.truncated context n r.length)
  else .ok (List.take n r, r.drop n)

def u8 (r : Reader) (context : String) : Except LldpError (Nat × Reader) :=
  (r.take 1 context).map fun read => (beNat read.1, read.2)

def u16Be (r : Reader) (context : String) : Except LldpError (Nat × Reader) :=
  (r.take 2 context).map fun read => (beNat read.1, read.2)

def u32Be (r : Reader) (context : String) : Except LldpError (Nat × Reader) :=
  (r.take 4 context).map fun read => (beNat read.1, read.2)

end Reader

def tlvEnd : Nat := 0
def tlvChassisId : Nat := 1
def tlvPortId : Nat := 2
def tlvTtl : Nat := 3
def tlvPortDesc : Nat := 4
def tlvSystemName : Nat := 5
def tlvSystemDesc : Nat := 6
def tlvSystemCaps : Nat := 7
def tlvMgmtAddr : Nat := 8

/-- An identifier under the subtype that says how its bytes are read. -/
structure IdField where
  subtype : Nat
  rendered : Option String
  raw : List UInt8
deriving DecidableEq

structure CapabilitySet where
  other : Bool
  repeater : Bool
  bridge : Bool
  wlanAp : Bool
  router : Bool
  telephone : Bool
  docsis : Bool
  station : Bool
deriving DecidableEq

def CapabilitySet.fromLldpBits (bits : Nat) : CapabilitySet where
  other := bits.testBit 0
  repeater := bits.testBit 1
  bridge := bits.testBit 2
  wlanAp := bits.testBit 3
  router := bits.testBit 4
  telephone := bits.testBit 5
  docsis := bits.testBit 6
  station := bits.testBit 7

/-- CDP's layout: router, transparent and source-route bridge, switch, host, IGMP, repeater. -/
def CapabilitySet.fromCdpBits (bits : Nat) : CapabilitySet where
  other := false
  repeater := bits.testBit 6
  bridge := bits.testBit 1 || bits.testBit 2 || bits.testBit 3
  wlanAp := false
  router := bits.testBit 0
  telephone := false
  docsis := false
  station := bits.testBit 4

structure Capabilities where
  available : CapabilitySet
  enabled : CapabilitySet
deriving DecidableEq

structure ManagementAddress where
  addressFamily : Nat
  rendered : Option String
  raw : List UInt8
deriving DecidableEq

def renderMac (bytes : List UInt8) : Option String :=
  if six : bytes.length = 6 then some (macText ⟨bytes.toArray, by simp [six]⟩) else none

/-- `char::is_control`: the Unicode category Cc. -/
def isControl (c : Char) : Bool :=
  c.toNat < 0x20 || 0x7f ≤ c.toNat && c.toNat ≤ 0x9f

def renderText (bytes : List UInt8) : Option String :=
  match String.fromUTF8? ⟨bytes.toArray⟩ with
  | none => none
  | some s =>
    if s.toList.any fun c => isControl c && !(c == '\t' || c == '\n' || c == '\r') then none
    else some s

/-- The segments of sixteen bytes, two bytes each. -/
def segments (bytes : List UInt8) : Ipv6Addr :=
  Vector.ofFn fun i : Fin 8 => UInt16.ofNat (beNat ((bytes.drop (2 * i)).take 2))

/-- An address only under the family its TLV declares. -/
def renderIp (family : Nat) (bytes : List UInt8) : Option String :=
  if family = 1 then
    if four : bytes.length = 4 then some (IpAddr.v4 ⟨bytes.toArray, by simp [four]⟩).text else none
  else if family = 2 ∧ bytes.length = 16 then some (IpAddr.v6 (segments bytes)).text
  else none

def splitSubtype (value : List UInt8) (context : String) : Except LldpError (Nat × List UInt8) :=
  match value with
  | [] => .error (.truncated context 1 0)
  | s :: rest => .ok (s.toNat, rest)

/-- A network address: a family byte, then the address. -/
def renderNetworkAddress : List UInt8 → Option String
  | [] => none
  | family :: addr => renderIp family.toNat addr

def decodeChassisId (value : List UInt8) : Except LldpError IdField := do
  let (subtype, id) ← splitSubtype value "chassis id"
  let rendered :=
    if subtype = 4 then renderMac id
    else if subtype = 5 then renderNetworkAddress id
    else if subtype = 6 ∨ subtype = 7 then renderText id
    else none
  return ⟨subtype, rendered, id⟩

def decodePortId (value : List UInt8) : Except LldpError IdField := do
  let (subtype, id) ← splitSubtype value "port id"
  let rendered :=
    if subtype = 3 then renderMac id
    else if subtype = 4 then renderNetworkAddress id
    else if subtype = 1 ∨ subtype = 5 ∨ subtype = 7 then renderText id
    else none
  return ⟨subtype, rendered, id⟩

/-- Two fields of sixteen bits; a short value is dropped. -/
def decodeCapabilities (value : List UInt8) : Option Capabilities := do
  let (available, r) ← (Reader.u16Be value "system caps").toOption
  let (enabled, _) ← (Reader.u16Be r "enabled caps").toOption
  return ⟨.fromLldpBits available, .fromLldpBits enabled⟩

/-- The address string's length counts the family byte too; one that does not fit is dropped. -/
def decodeManagementAddress (value : List UInt8) : Option ManagementAddress := do
  let (addrStrLen, r) ← (Reader.u8 value "mgmt addr str len").toOption
  if addrStrLen = 0 then none
  else
    let (addressFamily, r) ← (Reader.u8 r "mgmt addr family").toOption
    let (addr, _) ← (Reader.take r (addrStrLen - 1) "mgmt addr").toOption
    return ⟨addressFamily, renderIp addressFamily addr, addr⟩

/-- What the walk has found so far. -/
structure Found where
  chassisId : Option IdField := none
  portId : Option IdField := none
  ttl : Option Nat := none
  systemName : Option String := none
  systemDescription : Option String := none
  portDescription : Option String := none
  capabilities : Option Capabilities := none
  managementAddresses : List ManagementAddress := []

structure LldpFrame where
  chassisId : IdField
  portId : IdField
  ttl : Nat
  systemName : Option String
  systemDescription : Option String
  portDescription : Option String
  capabilities : Option Capabilities
  managementAddresses : List ManagementAddress
deriving DecidableEq

/-- One TLV's value, by its type; an unknown type is skipped. -/
def readValue (found : Found) (tlvType : Nat) (value : List UInt8) : Except LldpError Found :=
  if tlvType = tlvChassisId then
    (decodeChassisId value).map fun id => { found with chassisId := some id }
  else if tlvType = tlvPortId then
    (decodePortId value).map fun id => { found with portId := some id }
  else if tlvType = tlvTtl then
    (Reader.u16Be value "ttl value").map fun read => { found with ttl := some read.1 }
  else if tlvType = tlvPortDesc then .ok { found with portDescription := renderText value }
  else if tlvType = tlvSystemName then .ok { found with systemName := renderText value }
  else if tlvType = tlvSystemDesc then .ok { found with systemDescription := renderText value }
  else if tlvType = tlvSystemCaps then .ok { found with capabilities := decodeCapabilities value }
  else if tlvType = tlvMgmtAddr then
    match decodeManagementAddress value with
    | some addr => .ok { found with managementAddresses := found.managementAddresses ++ [addr] }
    | none => .ok found
  else .ok found

theorem Reader.length_of_take {r rest : Reader} {n : Nat} {context : String} {read : List UInt8}
    (taken : r.take n context = .ok (read, rest)) : rest.length + n = r.length := by
  unfold Reader.take at taken
  split at taken
  · cases taken
  next fits =>
    obtain ⟨-, rfl⟩ := Prod.mk.inj (Except.ok.inj taken)
    rw [List.length_drop]
    omega

theorem Reader.length_of_u16Be {r rest : Reader} {context : String} {n : Nat}
    (read : r.u16Be context = .ok (n, rest)) : rest.length + 2 = r.length := by
  unfold Reader.u16Be at read
  cases taken : r.take 2 context with
  | error e =>
    rw [taken] at read
    cases read
  | ok two =>
    rw [taken] at read
    obtain ⟨-, rfl⟩ := Prod.mk.inj (Except.ok.inj read)
    exact Reader.length_of_take taken

/-- The walk over the TLVs: a header of seven bits of type and nine of length, then the value. -/
def readTlvs (r : Reader) (found : Found) : Except LldpError Found :=
  if r.isEmpty then .ok found
  else
    match _headed : r.u16Be "tlv header" with
    | .error e => .error e
    | .ok (header, r') =>
      if header / 512 = tlvEnd then .ok found
      else
        match _taken : r'.take (header % 512) "tlv value" with
        | .error e => .error e
        | .ok (value, r'') =>
          match readValue found (header / 512) value with
          | .error e => .error e
          | .ok found => readTlvs r'' found
termination_by r.length
decreasing_by
  have shorter := Reader.length_of_u16Be _headed
  have rest := Reader.length_of_take _taken
  omega

def okOr {α : Type} (field : String) : Option α → Except LldpError α
  | some x => .ok x
  | none => .error (.missingMandatory field)

def finish (found : Found) : Except LldpError LldpFrame := do
  let chassisId ← okOr "chassis id" found.chassisId
  let portId ← okOr "port id" found.portId
  let ttl ← okOr "ttl" found.ttl
  return { found with chassisId, portId, ttl }

def parseLldp (bytes : List UInt8) : Except LldpError LldpFrame :=
  if bytes.isEmpty then .error .empty
  else (readTlvs bytes {}).bind finish

end Lldp
end NetObserver
