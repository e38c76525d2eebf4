import NetObserver.Mac

/-! One captured frame as the listener reads it: who sent it, and what it heard there. -/

namespace NetObserver

abbrev MacAddr := Vector UInt8 6

def macText (mac : MacAddr) : String :=
  ":".intercalate (mac.toList.map fun o => hexPair o.toNat)

theorem hexPair_inj {x y : UInt8} (high : (x.toNat / 16).digitChar = (y.toNat / 16).digitChar)
    (low : (x.toNat % 16).digitChar = (y.toNat % 16).digitChar) : x = y := by
  have digit : ∀ a < 16, ∀ b < 16, Nat.digitChar a = Nat.digitChar b → a = b := by decide
  have boundX := x.toNat_lt
  have boundY := y.toNat_lt
  have hi := digit _ (by omega) _ (by omega) high
  have lo := digit _ (by omega) _ (by omega) low
  exact UInt8.toNat_inj.mp (by omega)

theorem exists_octets (mac : MacAddr) : ∃ a b c d e f, mac = #v[a, b, c, d, e, f] := by
  refine ⟨mac[0], mac[1], mac[2], mac[3], mac[4], mac[5], ?_⟩
  ext i bound
  match i, bound with
  | 0, _ | 1, _ | 2, _ | 3, _ | 4, _ | 5, _ => rfl

theorem macText_injective : Function.Injective macText := by
  intro m n same
  obtain ⟨a, b, c, d, e, f, rfl⟩ := exists_octets m
  obtain ⟨a', b', c', d', e', f', rfl⟩ := exists_octets n
  have lists : (hexPair a.toNat ++ ":" ++ hexPair b.toNat ++ ":" ++ hexPair c.toNat ++ ":" ++
      hexPair d.toNat ++ ":" ++ hexPair e.toNat ++ ":" ++ hexPair f.toNat).toList =
      (hexPair a'.toNat ++ ":" ++ hexPair b'.toNat ++ ":" ++ hexPair c'.toNat ++ ":" ++
      hexPair d'.toNat ++ ":" ++ hexPair e'.toNat ++ ":" ++ hexPair f'.toNat).toList :=
    congrArg String.toList same
  simp only [hexPair, String.toList_append, String.toList_ofList] at lists
  simp only [List.cons_append, List.nil_append, List.append_assoc, List.cons.injEq,
    List.append_cancel_left_eq, and_true] at lists
  obtain ⟨a1, a2, b1, b2, c1, c2, d1, d2, e1, e2, f1, f2⟩ := lists
  cases hexPair_inj a1 a2
  cases hexPair_inj b1 b2
  cases hexPair_inj c1 c2
  cases hexPair_inj d1 d2
  cases hexPair_inj e1 e2
  cases hexPair_inj f1 f2
  rfl

/-- Six hex octets of any case, padded or not. -/
def macOctets (text : String) : Option MacAddr := do
  let octets ← (text.toList.splitOn ':').mapM hexByte
  let bytes := octets.map UInt8.ofNat
  if six : bytes.length = 6 then some ⟨bytes.toArray, by simp [six]⟩ else none

/-- Neither the broadcast address nor a group one, and not an unset field. -/
def isUnicast (mac : MacAddr) : Bool :=
  mac[0] &&& 1 == 0 && mac.toList.any (· != 0xff) && mac.toList.any (· != 0)

def broadcast : MacAddr := Vector.replicate 6 0xff

def unset : MacAddr := Vector.replicate 6 0

/-- The broadcast address, and a group's: no device of its own. -/
def Refused (mac : MacAddr) : Prop := mac = broadcast ∨ mac[0] &&& 1 = 1

instance (mac : MacAddr) : Decidable (Refused mac) :=
  inferInstanceAs (Decidable (mac = broadcast ∨ mac[0] &&& 1 = 1))

abbrev Ipv4Addr := Vector UInt8 4

abbrev Ipv6Addr := Vector UInt16 8

inductive IpAddr where
  | v4 (octets : Ipv4Addr)
  | v6 (segments : Ipv6Addr)
deriving DecidableEq

namespace IpAddr

def isUnspecified : IpAddr → Bool
  | v4 o => o.toList.all (· == 0)
  | v6 s => s.toList.all (· == 0)

def isMulticast : IpAddr → Bool
  | v4 o => decide (o[0] ≥ 224 ∧ o[0] ≤ 239)
  | v6 s => s[0] &&& 0xff00 == 0xff00

def isBroadcast : IpAddr → Bool
  | v4 o => o.toList.all (· == 255)
  | v6 _ => false

def isLoopback : IpAddr → Bool
  | v4 o => o[0] == 127
  | v6 s => s.toList == [0, 0, 0, 0, 0, 0, 0, 1]

/-- `169.254/16`, or `fe80::/10`. -/
def isLinkLocal : IpAddr → Bool
  | v4 o => o[0] == 169 && o[1] == 254
  | v6 s => s[0] &&& 0xffc0 == 0xfe80

/-- The longest run of zero segments, as its start and its length; of equals the first. -/
def zeroRun : List UInt16 → Nat → Nat × Nat → Nat × Nat → Nat × Nat
  | [], _, _, longest => longest
  | segment :: rest, i, current, longest =>
    if segment = 0 then
      let current := if current.2 = 0 then (i, 1) else (current.1, current.2 + 1)
      zeroRun rest (i + 1) current (if longest.2 < current.2 then current else longest)
    else zeroRun rest (i + 1) (0, 0) longest

def dotted (octets : List Nat) : String := ".".intercalate (octets.map Nat.repr)

def colons (segments : List UInt16) : String :=
  ":".intercalate (segments.map fun s => String.ofList (Nat.toDigits 16 s.toNat))

/-- `Display` of an address. -/
def text : IpAddr → String
  | v4 o => dotted (o.toList.map UInt8.toNat)
  | v6 s =>
    let segments := s.toList
    if segments.take 6 = [0, 0, 0, 0, 0, 0xffff] then
      "::ffff:" ++ dotted ((segments.drop 6).flatMap fun w => [w.toNat / 256, w.toNat % 256])
    else
      let (start, length) := zeroRun segments 0 (0, 0) (0, 0)
      if 1 < length then
        colons (segments.take start) ++ "::" ++ colons (segments.drop (start + length))
      else colons segments

end IpAddr

inductive Heard where
  | arp (senderMac : MacAddr) (senderIp : Ipv4Addr) (reply : Bool)
  | udp (srcIp : IpAddr) (srcPort dstPort : Nat) (payload : List UInt8)
  | other

structure Frame where
  srcMac : MacAddr
  heard : Heard

end NetObserver
