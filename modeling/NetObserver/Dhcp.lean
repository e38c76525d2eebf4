import Mathlib.Data.List.DropRight
import NetObserver.AnnounceWindow

/-! The DHCP decoder: a fixed header, and options read by index until the end marker, the end of
the bytes, or an option that runs past it. -/

namespace NetObserver
namespace Dhcp

def messageTypeName (code : UInt8) : Option String :=
  match code with
  | 1 => some "discover"
  | 2 => some "offer"
  | 3 => some "request"
  | 4 => some "decline"
  | 5 => some "ack"
  | 6 => some "nak"
  | 7 => some "release"
  | 8 => some "inform"
  | _ => none

def headerLen : Nat := 240

def magicCookie : List UInt8 := [0x63, 0x82, 0x53, 0x63]

/-- `char::is_whitespace`: the Unicode property White_Space. -/
def isWhitespace (c : Char) : Bool :=
  0x09 ≤ c.toNat && c.toNat ≤ 0x0d || c.toNat == 0x20 || c.toNat == 0x85 || c.toNat == 0xa0 ||
    c.toNat == 0x1680 || 0x2000 ≤ c.toNat && c.toNat ≤ 0x200a || c.toNat == 0x2028 ||
    c.toNat == 0x2029 || c.toNat == 0x202f || c.toNat == 0x205f || c.toNat == 0x3000

/-- An option's bytes as text; empty, or no UTF-8, is left out. -/
def text (value : List UInt8) : Option String :=
  match String.fromUTF8? ⟨value.toArray⟩ with
  | none => none
  | some s =>
    let trimmed := ((s.toList.rdropWhile (· == '\x00')).dropWhile isWhitespace).rdropWhile isWhitespace
    if trimmed.isEmpty then none else some (String.ofList trimmed)

/-- The bytes `start .. start + n` of a payload that has them. -/
def octetsAt (payload : List UInt8) (start n : Nat) (fits : start + n ≤ payload.length) :
    Vector UInt8 n :=
  ⟨((payload.drop start).take n).toArray, by
    rw [List.size_toArray, List.length_take, List.length_drop]
    omega⟩

def ipAt (payload : List UInt8) (start : Nat) (fits : start + 4 ≤ payload.length) :
    Option Ipv4Addr :=
  let a := octetsAt payload start 4 fits
  if a = Vector.replicate 4 0 then none else some a

/-- One complete option, by its code; an unknown code is skipped. -/
def readOption (msg : DhcpMessage) (code : UInt8) (value : List UInt8) : DhcpMessage :=
  if code = 53 then { msg with messageType := value.head?.bind messageTypeName }
  else if code = 12 then { msg with hostname := text value }
  else if code = 60 then { msg with vendorClass := text value }
  else if code = 54 then
    if four : value.toArray.size = 4 then { msg with serverId := some ⟨value.toArray, four⟩ }
    else msg
  else msg

/-- The loop over the options, from index `i` on. -/
def readOptions (opts : List UInt8) (i : Nat) (msg : DhcpMessage) : DhcpMessage :=
  if inside : i < opts.length then
    let code := opts[i]
    if code = 0 then readOptions opts (i + 1) msg
    else if code = 255 then msg
    else
      match opts[i + 1]? with
      | none => msg
      | some len =>
        let stop := i + 2 + len.toNat
        if stop ≤ opts.length then
          readOptions opts stop (readOption msg code ((opts.take stop).drop (i + 2)))
        else msg
  else msg
termination_by opts.length - i

def opOf : Option UInt8 → Option DhcpOp
  | some 1 => some .request
  | some 2 => some .reply
  | _ => none

def decode (payload : List UInt8) : Option DhcpMessage :=
  if short : payload.length < headerLen then none
  else if (payload.drop 236).take 4 ≠ magicCookie then none
  else do
    let op ← opOf payload[0]?
    if payload[1]? ≠ some 1 ∨ payload[2]? ≠ some 6 then none
    else
      have long : 240 ≤ payload.length := Nat.not_lt.mp short
      return readOptions (payload.drop headerLen) 0 {
        op
        chaddr := octetsAt payload 28 6 (by omega)
        ciaddr := ipAt payload 12 (by omega)
        yiaddr := ipAt payload 16 (by omega)
        messageType := none
        hostname := none
        vendorClass := none
        serverId := none }

end Dhcp
end NetObserver
