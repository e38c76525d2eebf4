import NetObserver.AnnounceWindow
import NetObserver.OrderedMap

/-! What an mDNS message says of its sender: the names it ties to the sender's own address, the
services it offers, and what it announces for somebody else. -/

namespace NetObserver
namespace Mdns

/-- A label as its bytes; it may hold any, a dot too. -/
abbrev Label := List UInt8

abbrev Name := List Label

inductive RData where
  | a (address : Ipv4Addr)
  | aaaa (address : Ipv6Addr)
  | srv (target : Name)
  | ptr (target : Name)
  | other

structure ResourceRecord where
  name : Name
  rdata : RData

structure Packet where
  answers : List ResourceRecord
  nameServers : List ResourceRecord
  additionalRecords : List ResourceRecord

def Packet.records (packet : Packet) : List ResourceRecord :=
  packet.answers ++ packet.nameServers ++ packet.additionalRecords

/-- The DNS library: how it parses a message, and how it shows a label. -/
structure SimpleDns where
  parse : List UInt8 → Option Packet
  labelText : Label → String

def servicesMeta : String := "_services._dns-sd._udp.local"

def localDomain : String := "local"

def join (labels : List String) : String := ".".intercalate labels

/-- `_type._tcp.local` or `_type._udp.local`, with any labels in between, without its `.local`. -/
def serviceType (labels : List String) : Option String :=
  let n := labels.length
  if n < 3 || labels[n - 1]? != some localDomain ||
      !(labels[n - 2]? == some "_tcp" || labels[n - 2]? == some "_udp") then none
  else if !labels.head?.any (·.toList.head? == some '_') then none
  else some (join (labels.take (n - 1)))

/-- `<instance>._type._tcp.local` as its type and its instance. -/
def splitInstance (labels : List String) : Option (String × String) :=
  match labels with
  | [] => none
  | first :: rest =>
    if labels.length < 4 || first.toList.head? == some '_' then none
    else (serviceType rest).map fun service => (service, first)

def eqIgnoreAsciiCase (a b : String) : Bool :=
  a.toList.map Char.toLower == b.toList.map Char.toLower

def v6Octets (segments : Ipv6Addr) : List Nat :=
  segments.toList.flatMap fun segment => [segment.toNat / 256, segment.toNat % 256]

/-- The labels of an address's reverse-lookup name. -/
def reverseLabels : IpAddr → List String
  | .v4 octets => octets.toList.reverse.map (Nat.repr ·.toNat) ++ ["in-addr", "arpa"]
  | .v6 segments =>
    ((v6Octets segments).reverse.flatMap fun octet => [octet % 16, octet / 16]).map
      (fun nibble => String.singleton nibble.digitChar) ++ ["ip6", "arpa"]

def isReverseOf (owner : List String) (ip : IpAddr) : Bool :=
  owner.length == (reverseLabels ip).length &&
    (owner.zip (reverseLabels ip)).all fun pair => eqIgnoreAsciiCase pair.1 pair.2

/-- The address a record ties to its owner. -/
def RData.address : RData → Option IpAddr
  | .a address => some (.v4 address)
  | .aaaa address => some (.v6 address)
  | _ => none

/-- `Vec::dedup`: of each run of equal elements, the first. -/
def dedup {α : Type*} [DecidableEq α] : List α → List α
  | [] => []
  | [x] => [x]
  | x :: y :: rest => if x = y then dedup (y :: rest) else x :: dedup (y :: rest)

section

variable (text : Label → String)

def labels (name : Name) : List String := name.map text

/-- A name as the decoder compares it: its labels as text, with dots between. -/
def spelled (name : Name) : String := join (labels text name)

def tieAddress (addresses : Std.TreeMap String (List IpAddr)) (rr : ResourceRecord) :
    Std.TreeMap String (List IpAddr) :=
  match rr.rdata.address with
  | some addr =>
    addresses.insert (spelled text rr.name) ((addresses[spelled text rr.name]?).getD [] ++ [addr])
  | none => addresses

/-- What addresses the message itself ties to each name. -/
def addresses (records : List ResourceRecord) : Std.TreeMap String (List IpAddr) :=
  records.foldl (tieAddress text) ∅

/-- The instances announced on another host's behalf. -/
def proxied (records : List ResourceRecord) (srcIp : IpAddr) : List String :=
  records.filterMap fun rr =>
    match rr.rdata with
    | .srv target =>
      if (addresses text records)[spelled text target]?.any (!·.contains srcIp) then
        some (spelled text rr.name)
      else none
    | _ => none

/-- Ranked name claims, the strongest ranked lowest, and the facts so far. -/
abbrev Absorbed := List (Nat × String) × MdnsFacts

def Absorbed.claim (acc : Absorbed) (rank : Nat) (name : String) : Absorbed :=
  (acc.1 ++ [(rank, name)], acc.2)

def Absorbed.offer (acc : Absorbed) (service : String × Option String) : Absorbed :=
  (acc.1, { acc.2 with services := acc.2.services ++ [service] })

def Absorbed.refuse (acc : Absorbed) : Absorbed :=
  (acc.1, { acc.2 with proxied := acc.2.proxied + 1 })

def absorb (srcIp : IpAddr) (proxied : List String) (acc : Absorbed) (rr : ResourceRecord) :
    Absorbed :=
  let owner := labels text rr.name
  match rr.rdata with
  | .a address => if srcIp = .v4 address then acc.claim 0 (join owner) else acc
  | .aaaa address => if srcIp = .v6 address then acc.claim 0 (join owner) else acc
  | .srv _ =>
    match splitInstance owner with
    | some (service, inst) =>
      if proxied.contains (join owner) then acc.refuse else acc.offer (service, some inst)
    | none => acc
  | .ptr ptr =>
    let target := labels text ptr
    let ownerText := join owner
    if ownerText = servicesMeta then
      match serviceType target with
      | some service => acc.offer (service, none)
      | none => acc
    else if isReverseOf owner srcIp then acc.claim 1 (join target)
    else
      match serviceType owner with
      | some service =>
        if proxied.contains (join target) then acc.refuse
        else acc.offer (service, (splitInstance target).map (·.2))
      | none => acc
  | .other => acc

/-- What the records of one message amount to. -/
def factsOf (records : List ResourceRecord) (srcIp : IpAddr) : MdnsFacts :=
  let absorbed := records.foldl (absorb text srcIp (proxied text records srcIp)) ([], ⟨[], [], 0⟩)
  -- stable, so two claims of one rank keep the records' order
  let names := absorbed.1.mergeSort fun a b => a.1 ≤ b.1
  { absorbed.2 with
    hostnames := names.foldl
      (fun hostnames name => if hostnames.contains name.2 then hostnames else hostnames ++ [name.2])
      absorbed.2.hostnames
    services := dedup absorbed.2.services }

end

def decode (dns : SimpleDns) (payload : List UInt8) (srcIp : IpAddr) : Option MdnsFacts :=
  (dns.parse payload).map fun packet => factsOf dns.labelText packet.records srcIp

end Mdns
end NetObserver
