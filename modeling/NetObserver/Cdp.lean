import NetObserver.Lldp

/-! The CDP decoder: a header of four bytes, then TLVs to the end of the bytes. -/

namespace NetObserver
namespace Lldp

open ByteOrder

def tlvDeviceId : Nat := 0x0001
def tlvCdpPortId : Nat := 0x0003
def tlvCapabilities : Nat := 0x0004
def tlvSoftwareVersion : Nat := 0x0005
def tlvPlatform : Nat := 0x0006

structure CdpFrame where
  version : Nat
  ttl : Nat
  deviceId : Option String := none
  portId : Option String := none
  platform : Option String := none
  softwareVersion : Option String := none
  capabilities : Option Capabilities := none
deriving DecidableEq

/-- One field of 32 bits; a short value is dropped. -/
def decodeCdpCapabilities (value : List UInt8) : Option Capabilities := do
  let (bits, _) ← (Reader.u32Be value "cdp caps").toOption
  return ⟨.fromCdpBits bits, .fromCdpBits bits⟩

/-- One TLV's value, by its type; an unknown type is skipped. -/
def CdpFrame.readValue (frame : CdpFrame) (tlvType : Nat) (value : List UInt8) : CdpFrame :=
  if tlvType = tlvDeviceId then { frame with deviceId := renderText value }
  else if tlvType = tlvCdpPortId then { frame with portId := renderText value }
  else if tlvType = tlvPlatform then { frame with platform := renderText value }
  else if tlvType = tlvSoftwareVersion then { frame with softwareVersion := renderText value }
  else if tlvType = tlvCapabilities then
    { frame with capabilities := decodeCdpCapabilities value }
  else frame

/-- The walk over the TLVs, whose length counts their own four bytes; only the end of the bytes
ends it. -/
def readCdpTlvs (r : Reader) (frame : CdpFrame) : Except LldpError CdpFrame :=
  if r.isEmpty then .ok frame
  else
    match _typed : r.u16Be "cdp tlv type" with
    | .error e => .error e
    | .ok (tlvType, r') =>
      match _sized : r'.u16Be "cdp tlv length" with
      | .error e => .error e
      | .ok (tlvLen, r'') =>
        if tlvLen < 4 then .error (.malformed "cdp tlv" "declared length below its 4-byte header")
        else
          match _taken : r''.take (tlvLen - 4) "cdp tlv value" with
          | .error e => .error e
          | .ok (value, rest) => readCdpTlvs rest (frame.readValue tlvType value)
termination_by r.length
decreasing_by
  have typed := Reader.length_of_u16Be _typed
  have sized := Reader.length_of_u16Be _sized
  have taken := Reader.length_of_take _taken
  omega

def parseCdp (bytes : List UInt8) : Except LldpError CdpFrame :=
  if bytes.isEmpty then .error .empty
  else do
    let (version, r) ← Reader.u8 bytes "cdp version"
    let (ttl, r) ← Reader.u8 r "cdp ttl"
    let (_checksum, r) ← Reader.u16Be r "cdp checksum"
    readCdpTlvs r { version, ttl }

end Lldp
end NetObserver
