import NetObserver.Dhcp
import NetObserver.LastSome

/-! The grammar of a DHCP message: a header, options with pads among them, then nothing, an end
marker or an option cut short. The decoder reads off it the last option of each code. -/

namespace NetObserver
namespace Dhcp

open LastSome

/-- A code other than the pad's and the end marker's, with a value whose length fits a byte. -/
structure DhcpOption where
  code : UInt8
  value : List UInt8
  notPad : code ≠ 0
  notEnd : code ≠ 255
  length_le : value.length ≤ 255

def DhcpOption.encode (o : DhcpOption) : List UInt8 :=
  o.code :: UInt8.ofNat o.value.length :: o.value

/-- A pad byte, or an option. -/
abbrev Item := Option DhcpOption

section

variable {opts rest : List UInt8} {i : Nat} {b : UInt8}

/-- The options among the items, in order. -/
def options (items : List Item) : List DhcpOption := items.filterMap id

end

/-- An address field: nothing for the unset one. -/
def AddressIs (octets : List UInt8) (a : Option Ipv4Addr) : Prop :=
  octets = [0, 0, 0, 0] ∧ a = none ∨ octets ≠ [0, 0, 0, 0] ∧ a.map Vector.toList = some octets

/-- The value of the last option of a code. -/
def lastValue (code : UInt8) (options : List DhcpOption) : Option (List UInt8) :=
  lastSome? (fun o => if o.code = code then some o.value else none) options

/-- A server identifier, of four bytes and no other count. -/
def serverIdOf (o : DhcpOption) : Option Ipv4Addr :=
  if four : o.code = 54 ∧ o.value.length = 4 then
    some ⟨o.value.toArray, by rw [List.size_toArray, four.2]⟩
  else none

/-- What a message says, read off its header and its options. -/
structure Says (header : List UInt8) (options : List DhcpOption) (msg : DhcpMessage) : Prop where
  op : header[0]? = some 1 ∧ msg.op = .request ∨ header[0]? = some 2 ∧ msg.op = .reply
  chaddr : msg.chaddr.toList = (header.drop 28).take 6
  ciaddr : AddressIs ((header.drop 12).take 4) msg.ciaddr
  yiaddr : AddressIs ((header.drop 16).take 4) msg.yiaddr
  messageType : msg.messageType =
    (lastValue 53 options).bind fun v => v.head?.bind messageTypeName
  hostname : msg.hostname = (lastValue 12 options).bind text
  vendorClass : msg.vendorClass = (lastValue 60 options).bind text
  serverId : msg.serverId = lastSome? serverIdOf options

section

variable {payload : List UInt8}

end

/-- The options of a code that the decoder reads. -/
def known (items : List Item) : List DhcpOption :=
  (options items).filter fun o => o.code = 53 ∨ o.code = 12 ∨ o.code = 60 ∨ o.code = 54

theorem AddressIs.unique {octets : List UInt8} {a b : Option Ipv4Addr} (isA : AddressIs octets a)
    (isB : AddressIs octets b) : a = b := by
  rcases isA with ⟨unset, rfl⟩ | ⟨set, isA⟩
  · rcases isB with ⟨-, rfl⟩ | ⟨set, -⟩
    · rfl
    · exact absurd unset set
  · rcases isB with ⟨unset, -⟩ | ⟨-, isB⟩
    · exact absurd unset set
    · exact Option.map_injective (fun _ _ same => Vector.toList_inj.mp same) (isA.trans isB.symm)

/-- A header and options say one message. -/
theorem Says.unique {header : List UInt8} {options : List DhcpOption} {msg msg' : DhcpMessage}
    (said : Says header options msg) (said' : Says header options msg') : msg = msg' := by
  have op : msg.op = msg'.op := by
    rcases said.op with ⟨octet, isOp⟩ | ⟨octet, isOp⟩ <;>
      rcases said'.op with ⟨octet', isOp'⟩ | ⟨octet', isOp'⟩
    · exact isOp.trans isOp'.symm
    · cases octet.symm.trans octet'
    · cases octet.symm.trans octet'
    · exact isOp.trans isOp'.symm
  have chaddr := Vector.toList_inj.mp (said.chaddr.trans said'.chaddr.symm)
  have ciaddr := said.ciaddr.unique said'.ciaddr
  have yiaddr := said.yiaddr.unique said'.yiaddr
  have messageType := said.messageType.trans said'.messageType.symm
  have hostname := said.hostname.trans said'.hostname.symm
  have vendorClass := said.vendorClass.trans said'.vendorClass.symm
  have serverId := said.serverId.trans said'.serverId.symm
  exact DhcpMessage.ext op chaddr ciaddr yiaddr messageType hostname vendorClass serverId

end Dhcp
end NetObserver
