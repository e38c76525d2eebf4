import NetObserver.LastSome
import NetObserver.LldpGrammar
import NetObserver.Topology

/-! CDP announcements as the wire carries them: a payload of TLVs in an 802.3 frame, with the pad
bytes that Ethernet appends. The decoder takes the pad for one more TLV. -/

namespace NetObserver
namespace Lldp

open ByteOrder LastSome

/-- A TLV whose length, its own four bytes counted, fits 16 bits. -/
structure CdpTlv where
  kind : Nat
  value : List UInt8
  kind_lt : kind < 65536
  length_lt : value.length + 4 < 65536

def CdpTlv.encode (t : CdpTlv) : List UInt8 :=
  beBytes 2 t.kind ++ (beBytes 2 (t.value.length + 4) ++ t.value)

structure CdpPayload where
  version : UInt8
  ttl : UInt8
  checksum : UInt16
  tlvs : List CdpTlv

def CdpPayload.encode (p : CdpPayload) : List UInt8 :=
  p.version :: p.ttl :: (beBytes 2 p.checksum.toNat ++ p.tlvs.flatMap CdpTlv.encode)

theorem u16Be_beBytes {n : Nat} (fits : n < 65536) (rest : List UInt8) (context : String) :
    Reader.u16Be (beBytes 2 n ++ rest) context = .ok (n, rest) := by
  rw [u16Be_append (beBytes_length 2 n), beNat_beBytes fits]

/-- What one pass of the walk does, read off the cursor. -/
theorem readCdpTlvs_eq {r : Reader} (some_left : r ≠ []) (frame : CdpFrame) :
    readCdpTlvs r frame = (r.u16Be "cdp tlv type").bind fun typed =>
      (typed.2.u16Be "cdp tlv length").bind fun sized =>
        if sized.1 < 4 then .error (.malformed "cdp tlv" "declared length below its 4-byte header")
        else (sized.2.take (sized.1 - 4) "cdp tlv value").bind fun taken =>
          readCdpTlvs taken.2 (frame.readValue typed.1 taken.1) := by
  rw [readCdpTlvs, if_neg (mt List.isEmpty_iff.mp some_left)]
  split
  next e failed =>
    rw [failed]
    rfl
  next tlvType r' typed =>
    rw [typed]
    change _ = (Reader.u16Be r' "cdp tlv length").bind _
    split
    next e failed =>
      rw [failed]
      rfl
    next tlvLen r'' sized =>
      rw [sized]
      change _ = if tlvLen < 4 then _ else _
      by_cases short : tlvLen < 4
      · rw [if_pos short, if_pos short]
      · rw [if_neg short, if_neg short]
        split
        next e failed =>
          rw [failed]
          rfl
        next value rest taken =>
          rw [taken]
          rfl

/-- One TLV is read by its type, and the walk goes on behind it. -/
theorem readCdpTlvs_encode (t : CdpTlv) (rest : List UInt8) (frame : CdpFrame) :
    readCdpTlvs (t.encode ++ rest) frame = readCdpTlvs rest (frame.readValue t.kind t.value) := by
  have some_left : t.encode ++ rest ≠ [] := by
    apply List.ne_nil_of_length_pos
    rw [CdpTlv.encode, List.length_append, List.length_append, beBytes_length]
    omega
  have whole : ¬ t.value.length + 4 < 4 := by omega
  have length : t.value.length + 4 - 4 = t.value.length := by omega
  rw [readCdpTlvs_eq some_left, CdpTlv.encode, List.append_assoc, List.append_assoc,
    u16Be_beBytes t.kind_lt]
  dsimp only [Except.bind]
  rw [u16Be_beBytes t.length_lt]
  dsimp only
  rw [if_neg whole, length, take_append]

theorem readCdpTlvs_flatMap (tlvs : List CdpTlv) (rest : List UInt8) (frame : CdpFrame) :
    readCdpTlvs (tlvs.flatMap CdpTlv.encode ++ rest) frame =
      readCdpTlvs rest (tlvs.foldl (fun frame t => frame.readValue t.kind t.value) frame) := by
  induction tlvs generalizing frame with
  | nil => rfl
  | cons t tlvs ih =>
    rw [List.flatMap_cons, List.append_assoc, readCdpTlvs_encode, List.foldl_cons]
    exact ih (frame.readValue t.kind t.value)

theorem readCdpTlvs_nil (frame : CdpFrame) : readCdpTlvs [] frame = .ok frame := by
  rw [readCdpTlvs, if_pos List.isEmpty_nil]

/-- Pad bytes read as a TLV of type and length zero, or as one cut short. -/
theorem readCdpTlvs_pad (pad : Nat) (frame : CdpFrame) :
    ∃ e, readCdpTlvs (List.replicate (pad + 1) 0) frame = .error e := by
  have some_left : List.replicate (pad + 1) (0 : UInt8) ≠ [] := by
    rw [List.replicate_succ]
    exact List.cons_ne_nil _ _
  rw [readCdpTlvs_eq some_left]
  match pad with
  | 0 => exact ⟨_, rfl⟩
  | 1 => exact ⟨_, rfl⟩
  | 2 => exact ⟨_, rfl⟩
  | pad + 3 =>
    have cut : List.replicate (pad + 3 + 1) (0 : UInt8) =
        [0, 0] ++ ([0, 0] ++ List.replicate pad 0) := rfl
    rw [cut, u16Be_append rfl]
    dsimp only [Except.bind]
    rw [u16Be_append rfl]
    exact ⟨_, rfl⟩

theorem parseCdp_encode (p : CdpPayload) (rest : List UInt8) :
    parseCdp (p.encode ++ rest) = readCdpTlvs rest
      (p.tlvs.foldl (fun frame t => frame.readValue t.kind t.value)
        { version := p.version.toNat, ttl := p.ttl.toNat }) := by
  have fits : p.checksum.toNat < 65536 := p.checksum.toNat_lt
  have version : beNat [p.version] = p.version.toNat := by
    change p.version.toNat + 256 * 0 = _
    omega
  have ttl : beNat [p.ttl] = p.ttl.toNat := by
    change p.ttl.toNat + 256 * 0 = _
    omega
  rw [← readCdpTlvs_flatMap, ← version, ← ttl]
  have sum := u16Be_beBytes fits (p.tlvs.flatMap CdpTlv.encode ++ rest) "cdp checksum"
  rw [parseCdp, CdpPayload.encode, List.cons_append, List.cons_append, List.append_assoc]
  have one (b : UInt8) (behind : List UInt8) (context : String) :
      Reader.u8 (b :: behind) context = .ok (beNat [b], behind) := by
    have taken := take_append [b] behind context
    change Reader.take (b :: behind) 1 context = .ok ([b], behind) at taken
    rw [Reader.u8, taken]
    rfl
  rw [if_neg (by simp), one]
  dsimp only [bind, Except.bind]
  rw [one]
  dsimp only
  rw [sum]

/-- A TLV replaces the field of its type, decoded or not, and no other. -/
theorem readValue_eq (frame : CdpFrame) (kind : Nat) (value : List UInt8) :
    frame.readValue kind value = { frame with
      deviceId := if kind = tlvDeviceId then renderText value else frame.deviceId
      portId := if kind = tlvCdpPortId then renderText value else frame.portId
      platform := if kind = tlvPlatform then renderText value else frame.platform
      softwareVersion := if kind = tlvSoftwareVersion then renderText value
        else frame.softwareVersion
      capabilities := if kind = tlvCapabilities then decodeCdpCapabilities value
        else frame.capabilities } := by
  unfold CdpFrame.readValue
  split
  next device =>
    subst device
    rfl
  next notDevice =>
    split
    next port =>
      subst port
      rfl
    next notPort =>
      split
      next platform =>
        subst platform
        rfl
      next notPlatform =>
        split
        next software =>
          subst software
          rfl
        next notSoftware =>
          split <;> rfl

/-- The value of a TLV of one type. -/
def CdpTlv.ofKind (kind : Nat) (t : CdpTlv) : Option (List UInt8) :=
  if t.kind = kind then some t.value else none

/-- The link that the last TLVs of a payload name; none without a printable Device ID. -/
def CdpPayload.link (p : CdpPayload) (iface : String) (tsUs : Int) : Option TopologyLink :=
  (((lastSome? (CdpTlv.ofKind tlvDeviceId) p.tlvs).bind renderText).filter (· ≠ "")).map
    fun device => {
      iface, tsUs
      remoteChassis := device
      remotePort := (((lastSome? (CdpTlv.ofKind tlvCdpPortId) p.tlvs).bind renderText).filter
        (· ≠ "")).getD "?"
      remoteSystemName := some device
      capabilities := (((lastSome? (CdpTlv.ofKind tlvCapabilities) p.tlvs).bind
        decodeCdpCapabilities).map fun c => capsTokens c.enabled).getD ""
      learnedVia := .cdp }

theorem linkFromCdp_encode (p : CdpPayload) (iface : String) (tsUs : Int) :
    linkFromCdp p.encode iface tsUs = p.link iface tsUs := by
  have parsed := parseCdp_encode p []
  rw [List.append_nil, readCdpTlvs_nil] at parsed
  rw [linkFromCdp, parsed]
  dsimp only [Except.toOption, Option.bind_eq_bind, Option.bind_some]
  have read (frame : CdpFrame) (t : CdpTlv) := readValue_eq frame t.kind t.value
  rw [field_foldl_decode CdpFrame.deviceId (fun s t => congrArg CdpFrame.deviceId (read s t)) _ rfl,
    field_foldl_decode CdpFrame.portId (fun s t => congrArg CdpFrame.portId (read s t)) _ rfl,
    field_foldl_decode CdpFrame.capabilities (fun s t => congrArg CdpFrame.capabilities (read s t))
      _ rfl, CdpPayload.link]
  symm
  exact Option.map_eq_bind

/-- An 802.3 frame around a payload, with a VLAN tag or without. -/
structure Framing where
  dst : MacAddr
  src : MacAddr
  tag : Option (UInt8 × UInt8)

/-- The length field counts the LLC and SNAP bytes and the payload. -/
def Framing.encode (f : Framing) (payload : List UInt8) : List UInt8 :=
  f.dst.toList ++ (f.src.toList ++ (f.tag.elim [] (fun tci => [0x81, 0x00, tci.1, tci.2]) ++
    (beBytes 2 (cdpSnap.length + payload.length) ++ (cdpSnap ++ payload))))

theorem etherPayload_untagged (dst src : MacAddr) {high low : UInt8} (rest : List UInt8)
    (untagged : beNat [high, low] ≠ 0x8100) :
    etherPayload (dst.toList ++ (src.toList ++ high :: low :: rest)) =
      (beNat [high, low], rest) := by
  obtain ⟨d1, d2, d3, d4, d5, d6, rfl⟩ := exists_octets dst
  obtain ⟨s1, s2, s3, s4, s5, s6, rfl⟩ := exists_octets src
  exact if_neg fun both => untagged both.1

theorem etherPayload_tagged (dst src : MacAddr) (tci : UInt8 × UInt8) (high low : UInt8)
    (rest : List UInt8) :
    etherPayload (dst.toList ++ (src.toList ++ 0x81 :: 0x00 :: tci.1 :: tci.2 :: high :: low :: rest)) =
      (beNat [high, low], rest) := by
  have long : ethHeaderLen + 4 ≤
      (dst.toList ++ (src.toList ++ 0x81 :: 0x00 :: tci.1 :: tci.2 :: high :: low :: rest)).length := by
    simp only [List.length_append, Vector.length_toList, List.length_cons, ethHeaderLen]
    omega
  obtain ⟨d1, d2, d3, d4, d5, d6, rfl⟩ := exists_octets dst
  obtain ⟨s1, s2, s3, s4, s5, s6, rfl⟩ := exists_octets src
  have slot : beNat [0x81, 0x00] = 0x8100 := rfl
  unfold etherPayload
  exact if_pos (And.intro slot long)

theorem etherPayload_encode (f : Framing) {payload : List UInt8}
    (fits : cdpSnap.length + payload.length ≤ 1500) (pad : List UInt8) :
    etherPayload (f.encode payload ++ pad) =
      (cdpSnap.length + payload.length, cdpSnap ++ (payload ++ pad)) := by
  have small : cdpSnap.length + payload.length < 256 ^ 2 := by omega
  have number := beNat_beBytes small
  obtain ⟨high, low, two⟩ := List.length_eq_two.mp
    (beBytes_length 2 (cdpSnap.length + payload.length))
  rw [two] at number
  rw [Framing.encode, two, List.append_assoc, List.append_assoc, List.append_assoc, ← number]
  cases f.tag with
  | none => exact etherPayload_untagged f.dst f.src _ (by omega)
  | some tci => exact etherPayload_tagged f.dst f.src tci high low _

theorem length_encode_ge (f : Framing) (payload : List UInt8) :
    ethHeaderLen ≤ (f.encode payload).length := by
  simp only [Framing.encode, List.length_append, Vector.length_toList, beBytes_length, ethHeaderLen]
  omega

/-- The decoder gets all that is behind the SNAP header, the pad with it. -/
theorem linkFromFrame_encode (f : Framing) {payload : List UInt8}
    (fits : cdpSnap.length + payload.length ≤ 1500) (pad : List UInt8) (iface : String)
    (tsUs : Int) : linkFromFrame (f.encode payload ++ pad) iface tsUs =
      linkFromCdp (payload ++ pad) iface tsUs := by
  have long := length_encode_ge f payload
  have header : ¬ (f.encode payload ++ pad).length < ethHeaderLen := by
    rw [List.length_append]
    omega
  have notLldp : cdpSnap.length + payload.length ≠ ethertypeLldp := by
    unfold ethertypeLldp
    omega
  have snap : cdpSnap.length ≤ (cdpSnap ++ (payload ++ pad)).length ∧
      (cdpSnap ++ (payload ++ pad)).take cdpSnap.length = cdpSnap :=
    ⟨by rw [List.length_append]; omega, List.take_left⟩
  rw [linkFromFrame, if_neg header, etherPayload_encode f fits]
  dsimp only
  rw [if_neg notLldp, if_pos snap, List.drop_left]

theorem linkFromCdp_pad (p : CdpPayload) (pad : Nat) (iface : String) (tsUs : Int) :
    linkFromCdp (p.encode ++ List.replicate (pad + 1) 0) iface tsUs = none := by
  obtain ⟨e, failed⟩ := readCdpTlvs_pad pad
    (p.tlvs.foldl (fun frame t => frame.readValue t.kind t.value)
      { version := p.version.toNat, ttl := p.ttl.toNat })
  rw [linkFromCdp, parseCdp_encode, failed]
  rfl

/-- Whether the last Device ID of a payload reads as text that is not empty. -/
def CdpPayload.named (p : CdpPayload) : Prop :=
  ∃ value text, lastSome? (CdpTlv.ofKind tlvDeviceId) p.tlvs = some value ∧
    renderText value = some text ∧ text ≠ ""

theorem link_ne_none_iff (p : CdpPayload) (iface : String) (tsUs : Int) :
    p.link iface tsUs ≠ none ↔ p.named := by
  rw [CdpPayload.link, CdpPayload.named, ne_eq, Option.map_eq_none_iff]
  cases lastSome? (CdpTlv.ofKind tlvDeviceId) p.tlvs with
  | none => simp
  | some value =>
    cases read : renderText value with
    | none => simp [read]
    | some text => simp [read, Option.filter]

/-- A frame gives the link of its payload's last TLVs; with pad bytes behind it, it gives that link
only where there is no pad, or no link. -/
theorem cdp_padded_iff (f : Framing) (p : CdpPayload)
    (fits : cdpSnap.length + p.encode.length ≤ 1500) (iface : String) (tsUs : Int) (pad : Nat) :
    linkFromFrame (f.encode p.encode) iface tsUs = p.link iface tsUs ∧
      (linkFromFrame (f.encode p.encode ++ List.replicate pad 0) iface tsUs =
        linkFromFrame (f.encode p.encode) iface tsUs ↔ pad = 0 ∨ ¬ p.named) := by
  have bare := linkFromFrame_encode f fits [] iface tsUs
  rw [List.append_nil, List.append_nil, linkFromCdp_encode] at bare
  refine ⟨bare, ?_⟩
  rw [bare, linkFromFrame_encode f fits]
  cases pad with
  | zero => simp [linkFromCdp_encode]
  | succ pad =>
    rw [linkFromCdp_pad, ← link_ne_none_iff p iface tsUs, not_ne_iff]
    constructor
    · intro same
      exact .inr same.symm
    · intro quiet
      exact (quiet.resolve_left (Nat.succ_ne_zero pad)).symm

/-- A switch's announcement of its name alone: 33 bytes of frame, which Ethernet pads to 60. -/
def switchPayload : CdpPayload := ⟨2, 180, 0, [⟨tlvDeviceId, [0x73, 0x77, 0x31], by decide, by decide⟩]⟩

def switchFraming : Framing :=
  ⟨#v[0x01, 0x00, 0x0c, 0xcc, 0xcc, 0xcc], #v[0x00, 0x1b, 0x54, 0x00, 0x00, 0x01], none⟩

theorem switchPayload_named : switchPayload.named := ⟨[0x73, 0x77, 0x31], "sw1", rfl, by decide, by decide⟩

theorem cdp_padding_loses_the_link :
    (switchFraming.encode switchPayload.encode).length + 27 = 60 ∧
      linkFromFrame (switchFraming.encode switchPayload.encode) "en0" 5 ≠ none ∧
      linkFromFrame (switchFraming.encode switchPayload.encode ++ List.replicate 27 0) "en0" 5 =
        none := by
  have fits : cdpSnap.length + switchPayload.encode.length ≤ 1500 := by decide
  refine ⟨by decide, ?_, ?_⟩
  · have bare := linkFromFrame_encode switchFraming fits [] "en0" 5
    rw [List.append_nil, List.append_nil, linkFromCdp_encode] at bare
    rw [bare, link_ne_none_iff]
    exact switchPayload_named
  · rw [linkFromFrame_encode switchFraming fits]
    exact linkFromCdp_pad switchPayload 26 "en0" 5

theorem cdp_padded_iff_switch :
    linkFromFrame (switchFraming.encode switchPayload.encode) "en0" 5 = switchPayload.link "en0" 5 ∧
      (linkFromFrame (switchFraming.encode switchPayload.encode ++ List.replicate 27 0) "en0" 5 =
        linkFromFrame (switchFraming.encode switchPayload.encode) "en0" 5 ↔
          27 = 0 ∨ ¬ switchPayload.named) :=
  cdp_padded_iff switchFraming switchPayload (by decide) "en0" 5 27

end Lldp
end NetObserver
