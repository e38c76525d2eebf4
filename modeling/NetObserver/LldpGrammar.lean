import Mathlib.Data.List.Induction
import NetObserver.Lldp

/-! The grammar of an LLDP unit: a run of TLVs, then nothing or an End, or a TLV cut short. The
decoder reads off it the last TLV of each type. -/

namespace NetObserver
namespace Lldp

open ByteOrder

/-- What one header can announce: a type in seven bits other than the End's, a length in nine. -/
structure Tlv where
  kind : Nat
  value : List UInt8
  kind_pos : 1 ≤ kind
  kind_le : kind ≤ 127
  value_le : value.length ≤ 511

def tlvHeader (kind length : Nat) : List UInt8 := beBytes 2 (kind * 512 + length)

def Tlv.encode (t : Tlv) : List UInt8 := tlvHeader t.kind t.value.length ++ t.value

/-- Nothing more, or an End of any length and any bytes behind it. -/
def Ended (ending : List UInt8) : Prop :=
  ending = [] ∨ ∃ high low junk, high < 2 ∧ ending = high :: low :: junk

/-- What is left of a TLV that the bytes end inside, with the error that tells of it. -/
inductive CutTlv : List UInt8 → LldpError → Prop
  | header (b : UInt8) : CutTlv [b] (.truncated "tlv header" 2 1)
  | value (t : Tlv) (k : Nat) (short : k < t.value.length) :
    CutTlv (tlvHeader t.kind t.value.length ++ t.value.take k)
      (.truncated "tlv value" t.value.length k)

theorem take_append (value rest : List UInt8) (context : String) :
    Reader.take (value ++ rest) value.length context = .ok (value, rest) := by
  have enough : ¬ (value ++ rest).length < value.length := by
    rw [List.length_append]
    omega
  rw [Reader.take, if_neg enough, List.take_left, List.drop_left]

theorem u16Be_append {two : List UInt8} (length : two.length = 2) (rest : List UInt8)
    (context : String) : Reader.u16Be (two ++ rest) context = .ok (beNat two, rest) := by
  have taken := take_append two rest context
  rw [length] at taken
  rw [Reader.u16Be, taken]
  rfl

theorem Tlv.header_length (t : Tlv) :
    (t.kind * 512 + t.value.length) % 512 = t.value.length := by
  have fits := t.value_le
  omega

section

variable {r r' : Reader} {header : Nat} {e : LldpError}

end

/-- Why a mandatory TLV fails the walk: it is too short for its field. -/
def Tlv.fault (t : Tlv) : Option LldpError :=
  if t.kind = tlvChassisId ∧ t.value = [] then some (.truncated "chassis id" 1 0)
  else if t.kind = tlvPortId ∧ t.value = [] then some (.truncated "port id" 1 0)
  else if t.kind = tlvTtl ∧ t.value.length < 2 then
    some (.truncated "ttl value" 2 t.value.length)
  else none

/-- The value of the last TLV of a type. -/
def lastValue (kind : Nat) (tlvs : List Tlv) : Option (List UInt8) :=
  ((tlvs.filter (·.kind = kind)).getLast?).map (·.value)

/-- Every mandatory TLV holds its field, and each of the three is there. -/
structure WellFormed (tlvs : List Tlv) : Prop where
  identified : ∀ t ∈ tlvs, t.kind = tlvChassisId ∨ t.kind = tlvPortId → 1 ≤ t.value.length
  timed : ∀ t ∈ tlvs, t.kind = tlvTtl → 2 ≤ t.value.length
  chassisId : ∃ t ∈ tlvs, t.kind = tlvChassisId
  portId : ∃ t ∈ tlvs, t.kind = tlvPortId
  ttl : ∃ t ∈ tlvs, t.kind = tlvTtl

/-- The TLVs of a type that the decoder reads. -/
def known (tlvs : List Tlv) : List Tlv := tlvs.filter (·.kind ≤ tlvMgmtAddr)

theorem CutTlv.truncated {part : List UInt8} {e : LldpError} (cut : CutTlv part e) :
    ∃ context need left, e = .truncated context need left := by
  cases cut with
  | header b => exact ⟨_, _, _, rfl⟩
  | value t k short => exact ⟨_, _, _, rfl⟩

end Lldp
end NetObserver
