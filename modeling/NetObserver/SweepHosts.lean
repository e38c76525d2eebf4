import NetObserver.DottedQuad
import NetObserver.MacFold
import NetObserver.PrefixMask

/-! The host addresses that a sweep of the local subnet covers. -/

namespace NetObserver

open PrefixMask

namespace Ipv4

/-- `u32::from` of an address. -/
def bits (a : Ipv4Addr) : BitVec 32 :=
  BitVec.ofNat 32 (a.toList.foldl (fun n octet => n * 256 + octet.toNat) 0)

def ofBits (b : BitVec 32) : Ipv4Addr :=
  #v[UInt8.ofNat (b.toNat / 16777216), UInt8.ofNat (b.toNat / 65536), UInt8.ofNat (b.toNat / 256),
    UInt8.ofNat b.toNat]

def checkedAdd (a b : BitVec 32) : Option (BitVec 32) :=
  if a.toNat + b.toNat < 4294967296 then some (a + b) else none

def checkedSub (a b : BitVec 32) : Option (BitVec 32) :=
  if b.toNat ≤ a.toNat then some (a - b) else none

def countOnes (b : BitVec 32) : Nat := (List.range 32).countP b.getLsbD

end Ipv4

open Ipv4

def defaultMaxSweepHosts : BitVec 32 := 65536

/-- The operator's ceiling: none is the built-in one, and 0 lifts it. -/
def sweepMaxCap : Option (BitVec 32) → Option (BitVec 32)
  | none => some defaultMaxSweepHosts
  | some n => if n = 0 then none else some n

def hardMaxSweepHosts : BitVec 32 := 1 <<< 20

/-- A subnet as its network address and the length of the prefix. -/
structure Cidr where
  net : Ipv4Addr
  prefixLen : Nat

def Cidr.text (c : Cidr) : String := (IpAddr.v4 c.net).text ++ "/" ++ c.prefixLen.repr

structure Ipv4Iface where
  addr : Ipv4Addr
  mask : Ipv4Addr

namespace Ipv4Iface

/-- How many hosts a mask leaves room for; none for what is not the mask of a subnet. -/
def hosts (mask : BitVec 32) : Option (BitVec 32) :=
  let inv := ~~~mask
  if inv &&& (inv + 1) ≠ 0 then none
  else ((checkedAdd inv 1).bind (checkedSub · 2)).filter fun h => 0#32 < h

/-- The addresses of so many hosts, or why there are too many; `none` where an addition
overflows. -/
def hostsUnder (i : Ipv4Iface) (cap : Option (BitVec 32)) (hosts : BitVec 32) :
    Option (Except String (List Ipv4Addr)) :=
  match cap.filter fun c => c < hosts with
  | some c =>
    some (.error ("subnet larger than " ++ c.toNat.repr ++
      " hosts (--sweep-max raises or lifts this ceiling)"))
  | none =>
    if hardMaxSweepHosts < hosts then
      some (.error ("range too large to sweep even with --sweep-max 0 (" ++ hosts.toNat.repr ++
        " hosts); scan a narrower subnet or use --target"))
    else do
      let net := bits i.addr &&& bits i.mask
      let all ← (List.range hosts.toNat).mapM fun n => checkedAdd net (BitVec.ofNat 32 (n + 1))
      some (.ok ((all.filter (· ≠ bits i.addr)).map ofBits))

def hostAddrs (i : Ipv4Iface) (cap : Option (BitVec 32)) :
    Option (Except String (List Ipv4Addr)) :=
  (hosts (bits i.mask)).elim (some (.error "not a subnet")) (i.hostsUnder cap)

def subnet (i : Ipv4Iface) : Cidr :=
  ⟨ofBits (bits i.addr &&& bits i.mask), countOnes (bits i.mask)⟩

def cidr (i : Ipv4Iface) : String := i.subnet.text

end Ipv4Iface

namespace Ipv4

theorem toNat_bits {a : Ipv4Addr} {p q r s : UInt8} (octets : a.toList = [p, q, r, s]) :
    (bits a).toNat = p.toNat * 16777216 + q.toNat * 65536 + r.toNat * 256 + s.toNat := by
  have first := p.toNat_lt
  have second := q.toNat_lt
  have third := r.toNat_lt
  have fourth := s.toNat_lt
  unfold bits
  rw [octets, BitVec.toNat_ofNat]
  simp only [List.foldl_cons, List.foldl_nil]
  omega

theorem bits_ofBits (b : BitVec 32) : bits (ofBits b) = b := by
  have bound := b.isLt
  have octet (n : Nat) : (UInt8.ofNat n).toNat = n % 256 := UInt8.toNat_ofNat'
  have octets : (ofBits b).toList = [UInt8.ofNat (b.toNat / 16777216), UInt8.ofNat (b.toNat / 65536),
    UInt8.ofNat (b.toNat / 256), UInt8.ofNat b.toNat] := rfl
  apply BitVec.eq_of_toNat_eq
  rw [toNat_bits octets]
  simp only [octet]
  omega

theorem ofBits_bits (a : Ipv4Addr) : ofBits (bits a) = a := by
  have octet (n : Nat) (o : UInt8) (same : n % 256 = o.toNat) : UInt8.ofNat n = o := by
    apply UInt8.toNat_inj.mp
    rw [UInt8.toNat_ofNat', same]
  obtain ⟨p, q, r, s, octets⟩ := DottedQuad.exists_octets a
  have value := toNat_bits octets
  have first := p.toNat_lt
  have second := q.toNat_lt
  have third := r.toNat_lt
  have fourth := s.toNat_lt
  rw [← Vector.toList_inj, octets]
  change [UInt8.ofNat ((bits a).toNat / 16777216), UInt8.ofNat ((bits a).toNat / 65536),
    UInt8.ofNat ((bits a).toNat / 256), UInt8.ofNat (bits a).toNat] = _
  rw [octet _ p (by omega), octet _ q (by omega), octet _ r (by omega), octet _ s (by omega)]

theorem bits_injective : Function.Injective bits :=
  Function.LeftInverse.injective ofBits_bits

theorem checkedAdd_eq_some {a b c : BitVec 32} :
    checkedAdd a b = some c ↔ c.toNat = a.toNat + b.toNat := by
  have bound := c.isLt
  unfold checkedAdd
  split
  next fits =>
    rw [Option.some.injEq, ← BitVec.toNat_inj, BitVec.toNat_add, Nat.mod_eq_of_lt fits]
    exact eq_comm
  next overflows =>
    constructor
    · intro absurd_
      cases absurd_
    · intro sum
      omega

theorem checkedSub_eq_some {a b c : BitVec 32} :
    checkedSub a b = some c ↔ a.toNat = c.toNat + b.toNat := by
  unfold checkedSub
  split
  next fits =>
    rw [Option.some.injEq, ← BitVec.toNat_inj, BitVec.toNat_sub_of_le fits]
    omega
  next overflows =>
    constructor
    · intro absurd_
      cases absurd_
    · intro sum
      omega

/-- A mask has as many ones as it has no zeros. -/
theorem countOnes_mask : ∀ h ≤ 32, countOnes (mask 32 h) = 32 - h := by decide

end Ipv4

theorem hosts_eq_some {m n : BitVec 32} : Ipv4Iface.hosts m = some n ↔
    ∃ h, 2 ≤ h ∧ h < 32 ∧ m = mask 32 h ∧ n.toNat = 2 ^ h - 2 := by
  have one : (1 : BitVec 32).toNat = 1 := rfl
  have two : (2 : BitVec 32).toNat = 2 := rfl
  unfold Ipv4Iface.hosts
  dsimp only
  split
  next apart =>
    constructor
    · intro absurd_
      cases absurd_
    · rintro ⟨h, _, short, same, _⟩
      exact absurd ((not_and_succ_eq_zero_iff m).mpr ⟨h, Nat.le_of_lt short, same⟩) apart
  next run =>
    rw [ne_eq, not_not] at run
    obtain ⟨h, le, rfl⟩ := (not_and_succ_eq_zero_iff m).mp run
    have room := toNat_not_mask (w := 32) le
    simp only [Option.filter_eq_some_iff, Option.bind_eq_some_iff, checkedAdd_eq_some,
      checkedSub_eq_some, one, two, room, decide_eq_true_iff, BitVec.lt_def, BitVec.toNat_zero]
    have positive := Nat.two_pow_pos h
    constructor
    · rintro ⟨⟨all, sum, difference⟩, some_⟩
      have bound := all.isLt
      refine ⟨h, ?_, ?_, rfl, by omega⟩
      · by_contra few
        have most : 2 ^ h ≤ 2 ^ 1 := Nat.pow_le_pow_right (by decide) (by omega)
        omega
      · by_contra all_
        have full : h = 32 := by omega
        subst full
        omega
    · rintro ⟨k, some_, short, same, value⟩
      have sameLength : h = k := by
        have counts := congrArg countOnes same
        rw [countOnes_mask h le, countOnes_mask k (Nat.le_of_lt short)] at counts
        omega
      subst sameLength
      have least : 2 ^ 2 ≤ 2 ^ h := Nat.pow_le_pow_right (by decide) some_
      have most : 2 ^ h ≤ 2 ^ 31 := Nat.pow_le_pow_right (by decide) (by omega)
      refine ⟨⟨BitVec.ofNat 32 (2 ^ h), ?_, ?_⟩, by omega⟩
      · rw [BitVec.toNat_ofNat, Nat.mod_eq_of_lt (by omega)]
        omega
      · rw [BitVec.toNat_ofNat, Nat.mod_eq_of_lt (by omega)]
        omega

namespace Cidr

/-- The mask of the prefix. -/
def maskBits (c : Cidr) : BitVec 32 := PrefixMask.mask 32 (32 - c.prefixLen)

def Contains (c : Cidr) (a : Ipv4Addr) : Prop := bits a &&& c.maskBits = bits c.net

/-- The address with every host bit set. -/
def broadcast (c : Cidr) : Ipv4Addr := ofBits (bits c.net ||| ~~~c.maskBits)

end Cidr

/-- A sweep covers the subnet: in ascending order and once each, every address of it but the
network address, the broadcast address and the interface's own, and no other. -/
structure Covers (c : Cidr) (own : Ipv4Addr) (addrs : List Ipv4Addr) : Prop where
  ascending : addrs.Pairwise fun a b => bits a < bits b
  mem_iff : ∀ a, a ∈ addrs ↔ c.Contains a ∧ a ≠ c.net ∧ a ≠ c.broadcast ∧ a ≠ own

/-- The addresses enumerated from a network address on. -/
def enumerated (net own : BitVec 32) (count : Nat) : List Ipv4Addr :=
  (((List.range count).map fun n => BitVec.ofNat 32 (net.toNat + n + 1)).filter (· ≠ own)).map
    ofBits

section

variable {i : Ipv4Iface} {h : Nat}

theorem mapM_checkedAdd {net : BitVec 32} {count : Nat} (room : net.toNat + count < 4294967296) :
    ((List.range count).mapM fun n => checkedAdd net (BitVec.ofNat 32 (n + 1))) =
      some ((List.range count).map fun n => BitVec.ofNat 32 (net.toNat + n + 1)) := by
  rw [mapM_eq_some_iff, List.map_map]
  apply List.map_congr_left
  intro n mem
  have inside := List.mem_range.mp mem
  change checkedAdd net (BitVec.ofNat 32 (n + 1)) = some (BitVec.ofNat 32 (net.toNat + n + 1))
  rw [checkedAdd_eq_some, BitVec.toNat_ofNat, BitVec.toNat_ofNat]
  omega

theorem toNat_subnet (masked : bits i.mask = mask 32 h) (le : h ≤ 32) :
    (bits i.subnet.net).toNat = (bits i.addr).toNat - (bits i.addr).toNat % 2 ^ h ∧
      i.subnet.maskBits = mask 32 h := by
  unfold Ipv4Iface.subnet Cidr.maskBits
  dsimp only
  rw [masked, bits_ofBits, toNat_and_mask _ le, countOnes_mask h le, Nat.sub_sub_self le]
  exact ⟨rfl, rfl⟩

/-- Which addresses the subnet has, by their numbers. -/
theorem contains_subnet (masked : bits i.mask = mask 32 h) (le : h ≤ 32) (a : Ipv4Addr) :
    i.subnet.Contains a ↔ (bits i.subnet.net).toNat ≤ (bits a).toNat ∧
      (bits a).toNat < (bits i.subnet.net).toNat + 2 ^ h := by
  obtain ⟨net, prefix_⟩ := toNat_subnet masked le
  have positive := Nat.two_pow_pos h
  unfold Cidr.Contains
  rw [prefix_, ← BitVec.toNat_inj, toNat_and_mask _ le, net]
  have own := Nat.div_add_mod (bits i.addr).toNat (2 ^ h)
  have its := Nat.div_add_mod (bits a).toNat (2 ^ h)
  have short := Nat.mod_lt (bits a).toNat positive
  constructor
  · intro same
    omega
  · rintro ⟨low, high⟩
    have block : (bits a).toNat / 2 ^ h = (bits i.addr).toNat / 2 ^ h := by
      apply Nat.div_eq_of_lt_le
      · rw [Nat.mul_comm]
        omega
      · rw [Nat.mul_comm, Nat.mul_add, Nat.mul_one]
        omega
    rw [block] at its
    omega

theorem toNat_broadcast (masked : bits i.mask = mask 32 h) (le : h ≤ 32) :
    (bits i.subnet.broadcast).toNat = (bits i.subnet.net).toNat + (2 ^ h - 1) := by
  obtain ⟨net, prefix_⟩ := toNat_subnet masked le
  unfold Cidr.broadcast
  rw [bits_ofBits, prefix_, net, ← toNat_or_not_mask _ le]
  unfold Ipv4Iface.subnet
  rw [bits_ofBits, masked]

/-- The enumeration covers the subnet. -/
theorem enumerated_covers (masked : bits i.mask = mask 32 h) (some_ : 2 ≤ h) (le : h ≤ 32) :
    Covers i.subnet i.addr
      (enumerated (bits i.addr &&& bits i.mask) (bits i.addr) (2 ^ h - 2)) := by
  have net : bits i.subnet.net = bits i.addr &&& bits i.mask := bits_ofBits _
  have top : (bits i.subnet.net).toNat + (2 ^ h - 1) < 4294967296 := by
    rw [← toNat_broadcast masked le]
    exact (bits i.subnet.broadcast).isLt
  have wide : 2 ^ 2 ≤ 2 ^ h := Nat.pow_le_pow_right (by decide) some_
  have number {n : Nat} (inside : n < 2 ^ h - 2) :
      (BitVec.ofNat 32 ((bits i.subnet.net).toNat + n + 1)).toNat =
        (bits i.subnet.net).toNat + n + 1 := by
    rw [BitVec.toNat_ofNat, Nat.mod_eq_of_lt (by omega)]
  rw [← net]
  unfold enumerated
  constructor
  case ascending =>
    rw [List.pairwise_map]
    simp only [bits_ofBits]
    refine List.Pairwise.filter _ (List.pairwise_map.mpr ?_)
    refine List.pairwise_lt_range.imp_of_mem ?_
    intro n k memN memK less
    rw [BitVec.lt_def, number (List.mem_range.mp memN), number (List.mem_range.mp memK)]
    omega
  case mem_iff =>
    intro a
    have named (b : Ipv4Addr) : a ≠ b ↔ (bits a).toNat ≠ (bits b).toNat := by
      rw [ne_eq, ne_eq, BitVec.toNat_inj, bits_injective.eq_iff]
    rw [contains_subnet masked le, named, named, named, toNat_broadcast masked le]
    simp only [List.mem_map, List.mem_filter, List.mem_range, decide_eq_true_iff]
    constructor
    · rintro ⟨b, ⟨⟨n, inside, rfl⟩, apart⟩, rfl⟩
      rw [ne_eq, ← BitVec.toNat_inj] at apart
      rw [bits_ofBits, number inside]
      rw [number inside] at apart
      omega
    · rintro ⟨⟨low, high⟩, notNet, notLast, notOwn⟩
      have inside : (bits a).toNat - (bits i.subnet.net).toNat - 1 < 2 ^ h - 2 := by omega
      have value := number inside
      have back : BitVec.ofNat 32 ((bits i.subnet.net).toNat +
          ((bits a).toNat - (bits i.subnet.net).toNat - 1) + 1) = bits a := by
        apply BitVec.eq_of_toNat_eq
        omega
      refine ⟨bits a, ⟨⟨_, inside, back⟩, ?_⟩, ofBits_bits a⟩
      rw [ne_eq, ← BitVec.toNat_inj]
      exact notOwn

end

/-- The text of a subnet names no other one. -/
theorem Cidr.text_injective {c d : Cidr} (same : c.text = d.text) : c = d := by
  have lists := congrArg String.toList same
  unfold Cidr.text at lists
  have slash : "/".toList = ['/'] := rfl
  rw [String.toList_append, String.toList_append, String.toList_append, String.toList_append, slash,
    List.append_assoc, List.append_assoc, List.singleton_append, List.singleton_append] at lists
  have free (a : Ipv4Addr) : '/' ∉ (IpAddr.v4 a).text.toList :=
    DottedQuad.notMem_text a rfl (by decide)
  obtain ⟨net, length⟩ := DottedQuad.split_injective (free _) (free _) lists
  have net := DottedQuad.text_injective (String.toList_injective net)
  have length := DottedQuad.repr_injective length
  obtain ⟨cNet, cLength⟩ := c
  obtain ⟨dNet, dLength⟩ := d
  cases net
  cases length
  rfl

/-- The masks and ceilings under which a subnet is swept. -/
def Sweepable (m : BitVec 32) (cap : Option (BitVec 32)) : Prop :=
  ∃ h, 2 ≤ h ∧ h ≤ 32 ∧ m = mask 32 h ∧ (∀ c, cap = some c → 2 ^ h - 2 ≤ c.toNat) ∧
    2 ^ h - 2 ≤ 2 ^ 20

theorem hostAddrs_of_hosts {i : Ipv4Iface} {n : BitVec 32} {h : Nat} (cap : Option (BitVec 32))
    (counted : Ipv4Iface.hosts (bits i.mask) = some n) (masked : bits i.mask = mask 32 h)
    (some_ : 2 ≤ h) (short : h < 32) (value : n.toNat = 2 ^ h - 2) :
    ∃ result, i.hostAddrs cap = some result ∧
      ((∃ addrs, result = .ok addrs) ↔ (∀ c, cap = some c → n.toNat ≤ c.toNat) ∧
        n.toNat ≤ 2 ^ 20) ∧
      ∀ addrs, result = .ok addrs → Covers i.subnet i.addr addrs := by
  have ceiling : hardMaxSweepHosts.toNat = 2 ^ 20 := rfl
  rw [Ipv4Iface.hostAddrs, counted, Option.elim_some, Ipv4Iface.hostsUnder]
  split
  next c exceeded =>
    rw [Option.filter_eq_some_iff, decide_eq_true_iff, BitVec.lt_def] at exceeded
    refine ⟨_, rfl, ?_, ?_⟩
    · constructor
      · rintro ⟨addrs, absurd_⟩
        cases absurd_
      · rintro ⟨under, _⟩
        have low := under c exceeded.1
        omega
    · intro addrs absurd_
      cases absurd_
  next under =>
    have within : ∀ c, cap = some c → n.toNat ≤ c.toNat := by
      intro c given
      rw [Option.filter_eq_none_iff] at under
      have most := under c given
      rw [decide_eq_true_iff, BitVec.lt_def] at most
      omega
    split
    next large =>
      rw [BitVec.lt_def, ceiling] at large
      refine ⟨_, rfl, ?_, ?_⟩
      · constructor
        · rintro ⟨addrs, absurd_⟩
          cases absurd_
        · rintro ⟨_, small⟩
          omega
      · intro addrs absurd_
        cases absurd_
    next small =>
      rw [BitVec.lt_def, ceiling] at small
      have room : (bits i.addr &&& bits i.mask).toNat + n.toNat < 4294967296 := by
        have last := (bits i.subnet.broadcast).isLt
        rw [toNat_broadcast masked (Nat.le_of_lt short)] at last
        have net : bits i.subnet.net = bits i.addr &&& bits i.mask := bits_ofBits _
        rw [net] at last
        omega
      dsimp only
      rw [mapM_checkedAdd room]
      refine ⟨_, rfl, ⟨fun _ => ⟨within, by omega⟩, fun _ => ⟨_, rfl⟩⟩, ?_⟩
      intro addrs listed
      cases listed
      rw [value]
      exact enumerated_covers masked some_ (Nat.le_of_lt short)

theorem hostAddrs_decided (i : Ipv4Iface) (cap : Option (BitVec 32)) :
    ∃ result, i.hostAddrs cap = some result ∧
      ((∃ addrs, result = .ok addrs) ↔ Sweepable (bits i.mask) cap) ∧
      ∀ addrs, result = .ok addrs → Covers i.subnet i.addr addrs := by
  cases counted : Ipv4Iface.hosts (bits i.mask) with
  | none =>
    refine ⟨.error "not a subnet", ?_, ?_, ?_⟩
    · rw [Ipv4Iface.hostAddrs, counted]
      rfl
    · constructor
      · rintro ⟨addrs, absurd_⟩
        cases absurd_
      · rintro ⟨h, some_, le, masked, _, small⟩
        have short : h < 32 := by
          by_contra all_
          have full : h = 32 := by omega
          subst full
          exact absurd small (by decide)
        have most : 2 ^ h ≤ 2 ^ 31 := Nat.pow_le_pow_right (by decide) (by omega)
        have found := hosts_eq_some.mpr ⟨h, some_, short, masked,
          (BitVec.toNat_ofNat (2 ^ h - 2) 32).trans (Nat.mod_eq_of_lt (by omega))⟩
        rw [counted] at found
        cases found
    · intro addrs absurd_
      cases absurd_
  | some n =>
    obtain ⟨h, some_, short, masked, value⟩ := hosts_eq_some.mp counted
    obtain ⟨result, made, decides, covers⟩ :=
      hostAddrs_of_hosts cap counted masked some_ short value
    refine ⟨result, made, decides.trans ?_, covers⟩
    rw [value]
    constructor
    · rintro ⟨under, small⟩
      exact ⟨h, some_, Nat.le_of_lt short, masked, under, small⟩
    · rintro ⟨k, _, le, masked', under, small⟩
      have counts := congrArg countOnes (masked.symm.trans masked')
      rw [countOnes_mask h (Nat.le_of_lt short), countOnes_mask k le] at counts
      have sameLength : h = k := by omega
      rw [sameLength]
      exact ⟨under, small⟩

/-- The sweep of every interface under every ceiling: it is refused just where it should be, no
addition overflows, and what it lists covers the one subnet that its record names. -/
theorem host_addrs_exact (i : Ipv4Iface) (cap : Option (BitVec 32)) :
    (∃ result, i.hostAddrs cap = some result ∧
      ((∃ addrs, result = .ok addrs) ↔ Sweepable (bits i.mask) cap) ∧
      ∀ addrs, result = .ok addrs → Covers i.subnet i.addr addrs) ∧
    ∀ c : Cidr, c.text = i.cidr → c = i.subnet :=
  ⟨hostAddrs_decided i cap, fun _ named => Cidr.text_injective named⟩

/-- With nothing asked for, the sweep covers every subnet down to sixteen host bits, and no wider
one. -/
theorem swept_by_default (i : Ipv4Iface) :
    (∃ addrs, i.hostAddrs (sweepMaxCap none) = some (.ok addrs)) ↔
      ∃ h, 2 ≤ h ∧ h ≤ 16 ∧ bits i.mask = mask 32 h := by
  obtain ⟨result, made, decides, _⟩ := hostAddrs_decided i (sweepMaxCap none)
  have asked : (∃ addrs, i.hostAddrs (sweepMaxCap none) = some (.ok addrs)) ↔
      ∃ addrs, result = .ok addrs := by
    rw [made]
    simp only [Option.some.injEq]
  rw [asked, decides]
  constructor
  · rintro ⟨h, some_, _, masked, under, _⟩
    have most := under defaultMaxSweepHosts rfl
    refine ⟨h, some_, ?_, masked⟩
    by_contra wide
    have wider : 2 ^ 17 ≤ 2 ^ h := Nat.pow_le_pow_right (by decide) (by omega)
    have ceiling : defaultMaxSweepHosts.toNat = 65536 := rfl
    omega
  · rintro ⟨h, some_, short, masked⟩
    have most : 2 ^ h ≤ 2 ^ 16 := Nat.pow_le_pow_right (by decide) short
    refine ⟨h, some_, by omega, masked, ?_, by omega⟩
    intro c given
    cases given
    have ceiling : defaultMaxSweepHosts.toNat = 65536 := rfl
    omega

end NetObserver
