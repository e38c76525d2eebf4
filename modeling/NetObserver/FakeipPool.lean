import NetObserver.ScanReport
import NetObserver.StdText
import NetObserver.SweepHosts

/-! The pool of fake addresses that a config declares, and the address that is probed inside it. -/

namespace NetObserver

open PrefixMask Ipv4

/-- A parsed document; an object holds each of its keys once. -/
inductive JsonValue where
  | null
  | bool (b : Bool)
  | number (text : String)
  | string (s : String)
  | array (items : List JsonValue)
  | object (fields : List (String × JsonValue))

namespace JsonValue

def get (key : String) : JsonValue → Option JsonValue
  | .object fields => fields.lookup key
  | _ => none

def asArray : JsonValue → Option (List JsonValue)
  | .array items => some items
  | _ => none

def asStr : JsonValue → Option String
  | .string s => some s
  | _ => none

end JsonValue

/-- `str::parse::<Ipv4Addr>`. -/
def parseIpv4 (text : List Char) : Option Ipv4Addr :=
  match IpAddr.readIpv4 text with
  | some (octets, rest) =>
    if rest.isEmpty then some (Vector.ofFn fun i => octets.getD i 0) else none
  | none => none

section

variable (fromStr : String → Option JsonValue) (configJson : String)

/-- The address and the prefix length that the first range of a DNS server spells. -/
def declaredRange : Option (Ipv4Addr × Nat) := do
  let value ← fromStr configJson
  let servers ← (← (← value.get "dns").get "servers").asArray
  let range ← servers.findSome? fun s => (s.get "inet4_range").bind JsonValue.asStr
  match StdText.splitOnce '/' range.toList with
  | (net, some length) =>
    let net ← parseIpv4 net
    let length ← StdText.parseUnsigned Machine.u32Max length
    if 32 < length then none else some (net, length)
  | (_, none) => none

/-- The network and the mask of the pool. -/
def fakeipRange : Option (BitVec 32 × BitVec 32) :=
  (declaredRange fromStr configJson).map fun (net, length) =>
    let mask : BitVec 32 := if length = 0 then 0 else BitVec.allOnes 32 <<< (32 - length)
    (bits net &&& mask, mask)

/-- One address inside the pool; the outer `none` is an addition that overflows. -/
def fakeipProbeAddr : Option (Option Ipv4Addr) :=
  match fakeipRange fromStr configJson with
  | none => some none
  | some (net, _) => (checkedAdd net 8).map fun probe => some (ofBits probe)

end

/-- Whether an address falls in the pool. -/
def isFakeipV4 (ip : Ipv4Addr) (pool : BitVec 32 × BitVec 32) : Bool := bits ip &&& pool.2 == pool.1

/-- The last address of a pool. -/
def broadcastOf (pool : BitVec 32 × BitVec 32) : BitVec 32 := pool.1 ||| ~~~pool.2

/-- The probe asks inside the pool that the config declares, and, where the pool has other
addresses, neither for its first nor for its last. -/
def ProbesInside (fromStr : String → Option JsonValue) (configJson : String) : Prop :=
  ∀ pool, fakeipRange fromStr configJson = some pool →
    ∃ probe, fakeipProbeAddr fromStr configJson = some (some probe) ∧
      isFakeipV4 probe pool = true ∧
      ((∃ other, isFakeipV4 other pool = true ∧ bits other ≠ pool.1 ∧
          bits other ≠ broadcastOf pool) →
        bits probe ≠ pool.1 ∧ bits probe ≠ broadcastOf pool)

section

variable {fromStr : String → Option JsonValue} {configJson : String} {net : Ipv4Addr} {n : Nat}

theorem rangeMask_eq (n : Nat) :
    (if n = 0 then 0 else BitVec.allOnes 32 <<< (32 - n) : BitVec 32) = mask 32 (32 - n) := by
  split
  next none_ =>
    rw [none_]
    rfl
  next => rfl

theorem declaredRange_short (declared : declaredRange fromStr configJson = some (net, n)) :
    n ≤ 32 := by
  unfold declaredRange at declared
  simp only [bind, Option.bind_eq_some_iff] at declared
  obtain ⟨_, _, _, _, _, _, _, _, range, _, declared⟩ := declared
  split at declared
  next =>
    simp only [Option.bind_eq_some_iff] at declared
    obtain ⟨_, _, _, _, declared⟩ := declared
    split at declared
    next => cases declared
    next short =>
      cases declared
      omega
  next => cases declared

theorem fakeipRange_eq (declared : declaredRange fromStr configJson = some (net, n)) :
    fakeipRange fromStr configJson = some (bits net &&& mask 32 (32 - n), mask 32 (32 - n)) := by
  unfold fakeipRange
  rw [declared, Option.map_some, ← rangeMask_eq n]

/-- Where the eighth address behind the network's lies: in the pool, if the pool is larger than
that. -/
theorem eighth_inside_iff {x p : BitVec 32} {h : Nat} (le : h ≤ 32)
    (value : p.toNat = (x &&& mask 32 h).toNat + 8) :
    p &&& mask 32 h = x &&& mask 32 h ↔ 3 < h := by
  have parts := Nat.div_add_mod x.toNat (2 ^ h)
  have start : (x &&& mask 32 h).toNat = 2 ^ h * (x.toNat / 2 ^ h) := by
    rw [toNat_and_mask x le]
    omega
  have power : 3 < h ↔ 8 < 2 ^ h := by
    have eight : 8 = 2 ^ 3 := rfl
    rw [eight, Nat.pow_lt_pow_iff_right (by decide)]
  rw [← BitVec.toNat_inj, toNat_and_mask p le, value, start, Nat.mul_add_mod, power]
  constructor
  · intro same
    have atMost := Nat.mod_le 8 (2 ^ h)
    have rest : 8 % 2 ^ h = 8 := by omega
    rw [← rest]
    exact Nat.mod_lt 8 (Nat.two_pow_pos h)
  · intro larger
    rw [Nat.mod_eq_of_lt larger]
    omega

theorem probesInside_iff (declared : declaredRange fromStr configJson = some (net, n)) :
    ProbesInside fromStr configJson ↔ n ≤ 28 := by
  have short := declaredRange_short declared
  have le : 32 - n ≤ 32 := Nat.sub_le 32 n
  have pool := fakeipRange_eq declared
  unfold ProbesInside
  rw [pool]
  simp only [Option.some.injEq, forall_eq']
  unfold fakeipProbeAddr
  rw [pool]
  dsimp only
  constructor
  · rintro ⟨probe, asked, inside, _⟩
    obtain ⟨p, sum, same⟩ := Option.map_eq_some_iff.mp asked
    rw [checkedAdd_eq_some] at sum
    cases same
    unfold isFakeipV4 at inside
    rw [beq_iff_eq, bits_ofBits, eighth_inside_iff le sum] at inside
    omega
  · intro wide
    have large : 2 ^ 4 ≤ 2 ^ (32 - n) := Nat.pow_le_pow_right (by decide) (by omega)
    have last := toNat_or_not_mask (bits net) le
    rw [← toNat_and_mask (bits net) le] at last
    have room := (bits net &&& mask 32 (32 - n) ||| ~~~mask 32 (32 - n)).isLt
    have sum : ((bits net &&& mask 32 (32 - n)) + 8).toNat =
        (bits net &&& mask 32 (32 - n)).toNat + 8 := by
      have eight : (8 : BitVec 32).toNat = 8 := rfl
      rw [BitVec.toNat_add, eight, Nat.mod_eq_of_lt (by omega)]
    refine ⟨ofBits ((bits net &&& mask 32 (32 - n)) + 8), ?_, ?_, fun _ => ⟨?_, ?_⟩⟩
    · rw [checkedAdd_eq_some.mpr sum]
      rfl
    · unfold isFakeipV4
      rw [beq_iff_eq, bits_ofBits, eighth_inside_iff le sum]
      omega
    · rw [bits_ofBits, ne_eq, ← BitVec.toNat_inj, sum]
      omega
    · rw [bits_ofBits, ne_eq, ← BitVec.toNat_inj, sum]
      unfold broadcastOf
      dsimp only
      omega

end

/-- For every config: the probe asks inside the declared pool just where that has a prefix of at
most 28 bits. -/
theorem probes_inside_iff (fromStr : String → Option JsonValue) (configJson : String) :
    ProbesInside fromStr configJson ↔
      ∀ net n, declaredRange fromStr configJson = some (net, n) → n ≤ 28 := by
  cases declared : declaredRange fromStr configJson with
  | none =>
    have nothing : fakeipRange fromStr configJson = none := by
      unfold fakeipRange
      rw [declared]
      rfl
    refine iff_of_true ?_ ?_
    · intro pool held
      rw [nothing] at held
      cases held
    · intro net n absurd_
      cases absurd_
  | some range =>
    rw [probesInside_iff declared]
    constructor
    · intro short net n same
      cases same
      exact short
    · intro all
      exact all range.1 range.2 rfl

/-- A pool of eight addresses, at the end of the addresses. -/
def lastPool : JsonValue :=
  .object [("dns", .object [("servers", .array
    [.object [("type", .string "fakeip"), ("inet4_range", .string "255.255.255.248/29")]])])]

/-- The probe of a pool of eight addresses is the address behind them, or none at all. -/
theorem eight_addresses_missed :
    declaredRange (fun _ => some lastPool) "" = some (#v[255, 255, 255, 248], 29) ∧
      fakeipProbeAddr (fun _ => some lastPool) "" = none ∧
      ¬ ProbesInside (fun _ => some lastPool) "" := by
  have declared : declaredRange (fun _ => some lastPool) "" = some (#v[255, 255, 255, 248], 29) :=
    rfl
  refine ⟨declared, rfl, ?_⟩
  rw [probesInside_iff declared]
  decide

end NetObserver
