import Mathlib.Data.List.Dedup
import Mathlib.Data.List.Lex
import Mathlib.Data.Prod.Lex
import NetObserver.Keyed
import NetObserver.OperatorScans

/-! An egress scan: the packets of a capture folded by destination, and the heaviest listed. -/

namespace NetObserver

open Machine

structure EgressPacket where
  dstIp : IpAddr
  bytes : UInt16

def egressTopN : Nat := 50

/-- The map's entry for a destination. -/
structure DstTally where
  dstIp : IpAddr
  packets : Nat
  bytes : Nat

def EgressPacket.tally (p : EgressPacket) : DstTally := ⟨p.dstIp, 1, p.bytes.toNat⟩

def DstTally.merge (old new : DstTally) : DstTally :=
  ⟨old.dstIp, old.packets + new.packets, satAddU64 old.bytes new.bytes⟩

/-- The order of addresses: V4 before V6, each by their parts from the first on. -/
def IpAddr.order : IpAddr → ℕ ×ₗ List ℕ
  | v4 octets => toLex (4, octets.toList.map UInt8.toNat)
  | v6 segments => toLex (6, segments.toList.map UInt16.toNat)

/-- Heaviest by bytes first, ties by address. -/
def DstTally.heavierFirst (a b : DstTally) : Bool :=
  b.bytes < a.bytes || (a.bytes == b.bytes && decide (a.dstIp.order ≤ b.dstIp.order))

structure EgressFold where
  byDst : List DstTally
  packetCount : Nat
  byteCount : Nat

def EgressFold.packet (f : EgressFold) (p : EgressPacket) : EgressFold where
  byDst := Keyed.upsert DstTally.dstIp DstTally.merge f.byDst p.tally
  packetCount := f.packetCount + 1
  byteCount := satAddU64 f.byteCount p.bytes.toNat

/-- What the capture hands over: why it could not start, or the raw frames. -/
inductive EgressCaptured where
  | couldNotStart (reason : String)
  | ran (frames : List (List UInt8))

/-- `i32::try_from(n).unwrap_or(i32::MAX)`. -/
def clampI32 (n : Nat) : Nat := min n 2147483647

section

-- `drain` is the order in which the hash map hands out its entries.
variable (dstAndLen : List UInt8 → Option EgressPacket) (drain : List DstTally → List DstTally)

def foldEgress (frames : List (List UInt8)) : EgressFold :=
  frames.foldl (fun f frame =>
    match dstAndLen frame with
    | none => f
    | some pkt => f.packet pkt) ⟨[], 0, 0⟩

def egressOutcome : EgressCaptured → EgressCaptureOutcome
  | .couldNotStart reason => .couldNotStart reason
  | .ran frames =>
    let fold := foldEgress dstAndLen frames
    let sorted := (drain fold.byDst).mergeSort DstTally.heavierFirst
    .ran (clampI32 fold.packetCount) (clampI32 fold.byDst.length) fold.byteCount
      ((sorted.take egressTopN).map fun t => (t.dstIp.text, clampI32 t.packets, t.bytes))

def runEgressCapture (captured : EgressCaptured) (iface : String) (durationMs : Nat)
    (now : Int) : EgressScanHeader × List EgressDst :=
  egressScan iface durationMs now (egressOutcome dstAndLen drain captured)

end

theorem IpAddr.order_injective {a b : IpAddr} (same : a.order = b.order) : a = b := by
  cases a with
  | v4 o =>
    cases b with
    | v4 o' =>
      have parts := (Prod.mk.inj (toLex.injective same)).2
      have octets := List.map_injective_iff.mpr (fun _ _ => UInt8.toNat_inj.mp) parts
      rw [Vector.toList_inj.mp octets]
    | v6 s => exact absurd (Prod.mk.inj (toLex.injective same)).1 (by decide)
  | v6 s =>
    cases b with
    | v4 o => exact absurd (Prod.mk.inj (toLex.injective same)).1 (by decide)
    | v6 s' =>
      have parts := (Prod.mk.inj (toLex.injective same)).2
      have segments := List.map_injective_iff.mpr (fun _ _ => UInt16.toNat_inj.mp) parts
      rw [Vector.toList_inj.mp segments]

namespace DstTally

variable {a b c : DstTally}

theorem heavierFirst_iff : a.heavierFirst b = true ↔
    b.bytes < a.bytes ∨ a.bytes = b.bytes ∧ a.dstIp.order ≤ b.dstIp.order := by
  simp [heavierFirst]

theorem heavierFirst_total (a b : DstTally) : (a.heavierFirst b || b.heavierFirst a) = true := by
  rw [Bool.or_eq_true, heavierFirst_iff, heavierFirst_iff]
  rcases Nat.lt_trichotomy a.bytes b.bytes with less | same | more
  · exact .inr (.inl less)
  · rcases le_total a.dstIp.order b.dstIp.order with first | second
    · exact .inl (.inr ⟨same, first⟩)
    · exact .inr (.inr ⟨same.symm, second⟩)
  · exact .inl (.inl more)

theorem heavierFirst_trans (a b c : DstTally) (ab : a.heavierFirst b = true)
    (bc : b.heavierFirst c = true) : a.heavierFirst c = true := by
  rw [heavierFirst_iff] at ab bc ⊢
  rcases ab with ab | ⟨ab, first⟩
  · rcases bc with bc | ⟨bc, _⟩
    · exact .inl (by omega)
    · exact .inl (by omega)
  · rcases bc with bc | ⟨bc, second⟩
    · exact .inl (by omega)
    · exact .inr ⟨by omega, first.trans second⟩

theorem dstIp_of_heavierFirst (ab : a.heavierFirst b = true) (ba : b.heavierFirst a = true) :
    a.dstIp = b.dstIp := by
  rw [heavierFirst_iff] at ab ba
  rcases ab with ab | ⟨_, first⟩
  · rcases ba with ba | ⟨ba, _⟩
    · omega
    · omega
  · rcases ba with ba | ⟨_, second⟩
    · omega
    · exact IpAddr.order_injective (le_antisymm first second)

end DstTally

section Totals

variable (pkts : List EgressPacket)

/-- The packets to one destination, and their bytes. -/
def packetsTo (ip : IpAddr) : Nat := (pkts.filter fun p => p.dstIp = ip).length

def bytesTo (ip : IpAddr) : Nat :=
  ((pkts.filter fun p => p.dstIp = ip).map fun p => p.bytes.toNat).sum

def totalBytes : Nat := (pkts.map fun p => p.bytes.toNat).sum

def destinations : List IpAddr := (pkts.map EgressPacket.dstIp).dedup

def tallyOf (ip : IpAddr) : DstTally := ⟨ip, packetsTo pkts ip, min (bytesTo pkts ip) u64Max⟩

end Totals

section

variable {pkts : List EgressPacket} {ip : IpAddr} {t : DstTally}

theorem totalBytes_le (pkts : List EgressPacket) : totalBytes pkts ≤ 65535 * pkts.length := by
  unfold totalBytes
  induction pkts with
  | nil => exact Nat.le_refl _
  | cons p pkts ih =>
    have small := p.bytes.toNat_lt
    rw [List.map_cons, List.sum_cons, List.length_cons]
    omega

theorem bytesTo_le (pkts : List EgressPacket) (ip : IpAddr) :
    bytesTo pkts ip ≤ 65535 * pkts.length := by
  have bound := totalBytes_le (pkts.filter fun p => p.dstIp = ip)
  have fewer : (pkts.filter fun p => p.dstIp = ip).length ≤ pkts.length :=
    List.length_filter_le _ _
  unfold totalBytes at bound
  unfold bytesTo
  omega

theorem packetsTo_le (pkts : List EgressPacket) (ip : IpAddr) : packetsTo pkts ip ≤ pkts.length :=
  List.length_filter_le _ _

theorem foldEgress_eq (dstAndLen : List UInt8 → Option EgressPacket)
    (frames : List (List UInt8)) : foldEgress dstAndLen frames =
      (frames.filterMap dstAndLen).foldl EgressFold.packet ⟨[], 0, 0⟩ := by
  unfold foldEgress
  rw [List.foldl_filterMap]
  congr 1
  funext f frame
  cases dstAndLen frame <;> rfl

/-- What the fold holds after some packets. -/
theorem foldl_packet (pkts : List EgressPacket) :
    pkts.foldl EgressFold.packet ⟨[], 0, 0⟩ =
      { byDst := (pkts.map EgressPacket.tally).foldl
          (Keyed.upsert DstTally.dstIp DstTally.merge) []
        packetCount := pkts.length
        byteCount := min (totalBytes pkts) u64Max } := by
  induction pkts using List.reverseRecOn with
  | nil => rfl
  | append_singleton pkts p ih =>
    have bytes : totalBytes (pkts ++ [p]) = totalBytes pkts + p.bytes.toNat := by
      simp [totalBytes]
    rw [List.foldl_concat, ih, EgressFold.packet, satAddU64_min, bytes, List.map_append,
      List.foldl_append, List.length_append]
    rfl

theorem merge_keeps (old new : DstTally) (same : old.dstIp = new.dstIp) :
    (old.merge new).dstIp = new.dstIp := same

/-- The packets to one destination, folded. -/
theorem foldl_tally {group : List EgressPacket} (sent : ∀ p ∈ group, p.dstIp = ip)
    (some_ : group ≠ []) :
    (group.map EgressPacket.tally).foldl
        (fun found new => some (found.elim new (DstTally.merge · new))) none =
      some ⟨ip, group.length, min (totalBytes group) u64Max⟩ := by
  induction group using List.reverseRecOn with
  | nil => exact absurd rfl some_
  | append_singleton group p ih =>
    have here := sent p (by simp)
    have small := p.bytes.toNat_lt
    have bytes : totalBytes (group ++ [p]) = totalBytes group + p.bytes.toNat := by
      simp [totalBytes]
    rw [List.map_append, List.foldl_append, bytes, List.length_append]
    by_cases empty : group = []
    · subst empty
      have exact_ : min (totalBytes [] + p.bytes.toNat) u64Max = p.bytes.toNat := by
        unfold totalBytes u64Max
        simp only [List.map_nil, List.sum_nil, Nat.zero_add]
        omega
      rw [exact_, ← here]
      rfl
    · rw [ih (fun q mem => sent q (List.mem_append_left _ mem)) empty, ← satAddU64_min]
      rfl

theorem rowOf_byDst (pkts : List EgressPacket) (ip : IpAddr) :
    Keyed.rowOf DstTally.dstIp ((pkts.map EgressPacket.tally).foldl
        (Keyed.upsert DstTally.dstIp DstTally.merge) []) ip =
      if ip ∈ pkts.map EgressPacket.dstIp then some (tallyOf pkts ip) else none := by
  have group : (pkts.map EgressPacket.tally).filter (fun t => t.dstIp = ip) =
      (pkts.filter fun p => p.dstIp = ip).map EgressPacket.tally := by
    rw [List.filter_map]
    rfl
  rw [Keyed.rowOf_foldl_upsert merge_keeps, group]
  have absent : Keyed.rowOf DstTally.dstIp [] ip = none := rfl
  rw [absent]
  split
  next there =>
    obtain ⟨p, mem, same⟩ := List.mem_map.mp there
    have some_ : pkts.filter (fun p => p.dstIp = ip) ≠ [] :=
      List.ne_nil_of_mem (List.mem_filter.mpr ⟨mem, decide_eq_true same⟩)
    exact foldl_tally (fun p held => of_decide_eq_true (List.mem_filter.mp held).2) some_
  next gone =>
    have none_ : pkts.filter (fun p => p.dstIp = ip) = [] := by
      refine List.filter_eq_nil_iff.mpr fun p mem same => gone ?_
      exact List.mem_map.mpr ⟨p, mem, of_decide_eq_true same⟩
    rw [none_]
    rfl

theorem byDst_nodup (pkts : List EgressPacket) :
    (((pkts.map EgressPacket.tally).foldl (Keyed.upsert DstTally.dstIp DstTally.merge) []).map
      DstTally.dstIp).Nodup := by
  have fresh : (([] : List DstTally).map DstTally.dstIp).Nodup := List.nodup_nil
  exact Keyed.foldl_upsert_keys_nodup merge_keeps fresh _

/-- The map holds each destination once, with all that went to it. -/
theorem byDst_perm (pkts : List EgressPacket) :
    ((pkts.map EgressPacket.tally).foldl (Keyed.upsert DstTally.dstIp DstTally.merge) []).Perm
      ((destinations pkts).map (tallyOf pkts)) := by
  have once : ((destinations pkts).map (tallyOf pkts)).Nodup := by
    refine (List.nodup_dedup _).map fun a b same => ?_
    exact congrArg DstTally.dstIp same
  refine (List.perm_ext_iff_of_nodup (List.Nodup.of_map _ (byDst_nodup pkts)) once).mpr fun t => ?_
  have row := rowOf_byDst pkts t.dstIp
  constructor
  · intro mem
    rw [Keyed.rowOf_of_mem (byDst_nodup pkts) mem] at row
    split at row
    next there =>
      exact List.mem_map.mpr ⟨t.dstIp, List.mem_dedup.mpr there, (Option.some.inj row).symm⟩
    next => cases row
  · intro mem
    obtain ⟨ip, listed, rfl⟩ := List.mem_map.mp mem
    have row := rowOf_byDst pkts ip
    rw [if_pos (List.mem_dedup.mp listed)] at row
    exact (Keyed.rowOf_key row).1

theorem tallyOf_perm {pkts' : List EgressPacket} (perm : pkts.Perm pkts') (ip : IpAddr) :
    tallyOf pkts ip = tallyOf pkts' ip := by
  have group := perm.filter fun p => p.dstIp = ip
  have packets : packetsTo pkts ip = packetsTo pkts' ip := group.length_eq
  have bytes : bytesTo pkts ip = bytesTo pkts' ip := (group.map _).sum_eq
  rw [tallyOf, tallyOf, packets, bytes]

theorem destinations_perm {pkts' : List EgressPacket} (perm : pkts.Perm pkts') :
    (destinations pkts).Perm (destinations pkts') := (perm.map _).dedup

/-- A sorted list of the map's entries is the only one. -/
theorem sorted_unique {sorted sorted' : List DstTally}
    (here : sorted.Perm ((destinations pkts).map (tallyOf pkts)))
    (there : sorted'.Perm ((destinations pkts).map (tallyOf pkts)))
    (order : sorted.Pairwise fun a b => a.heavierFirst b = true)
    (order' : sorted'.Pairwise fun a b => a.heavierFirst b = true) : sorted = sorted' := by
  have entry {list : List DstTally} (perm : list.Perm ((destinations pkts).map (tallyOf pkts)))
      {t : DstTally} (mem : t ∈ list) : t = tallyOf pkts t.dstIp := by
    obtain ⟨ip, _, rfl⟩ := List.mem_map.mp (perm.mem_iff.mp mem)
    rfl
  refine List.Perm.eq_of_pairwise (fun a b memA memB ab ba => ?_) order order'
    (here.trans there.symm)
  rw [entry here memA, entry there memB, DstTally.dstIp_of_heavierFirst ab ba]

/-- The destinations in the order of the list. -/
structure Ranking (pkts : List EgressPacket) (ranking : List IpAddr) : Prop where
  perm : ranking.Perm (destinations pkts)
  order : ranking.Pairwise fun a b => (tallyOf pkts a).heavierFirst (tallyOf pkts b) = true

theorem exists_ranking {sorted : List DstTally}
    (perm : sorted.Perm ((destinations pkts).map (tallyOf pkts)))
    (order : sorted.Pairwise fun a b => a.heavierFirst b = true) :
    ∃ ranking, Ranking pkts ranking ∧ sorted = ranking.map (tallyOf pkts) := by
  have entries : sorted = (sorted.map DstTally.dstIp).map (tallyOf pkts) := by
    rw [List.map_map]
    refine (List.map_id _).symm.trans (List.map_congr_left fun t mem => ?_)
    obtain ⟨ip, _, rfl⟩ := List.mem_map.mp (perm.mem_iff.mp mem)
    rfl
  have ips : (sorted.map DstTally.dstIp).Perm (destinations pkts) := by
    have mapped := perm.map DstTally.dstIp
    rw [List.map_map] at mapped
    have same : (destinations pkts).map (DstTally.dstIp ∘ tallyOf pkts) = destinations pkts :=
      List.map_id _
    rw [same] at mapped
    exact mapped
  refine ⟨sorted.map DstTally.dstIp, ⟨ips, ?_⟩, entries⟩
  rw [entries] at order
  exact List.pairwise_map.mp order

end

/-- What an egress scan says of the packets it mapped. -/
structure CountsTraffic (pkts : List EgressPacket) (iface : String) (durationMs : Nat) (now : Int)
    (scan : EgressScanHeader × List EgressDst) : Prop where
  header : scan.1 = ⟨now, iface, "OK", none, durationMs, pkts.length, (destinations pkts).length,
    totalBytes pkts⟩
  rows : ∃ listed : List IpAddr, listed.Nodup ∧ (∀ ip ∈ listed, ip ∈ destinations pkts) ∧
    listed.length = min egressTopN (destinations pkts).length ∧
    scan.2 = listed.map (fun ip => ⟨now, ip.text, packetsTo pkts ip, bytesTo pkts ip⟩) ∧
    listed.Pairwise (fun a b => bytesTo pkts b < bytesTo pkts a ∨
      bytesTo pkts a = bytesTo pkts b ∧ a.order < b.order) ∧
    ∀ ip ∈ destinations pkts, ip ∉ listed → ∀ last, listed.getLast? = some last →
      bytesTo pkts ip ≤ bytesTo pkts last

section

variable {dstAndLen : List UInt8 → Option EgressPacket} {drain : List DstTally → List DstTally}
  {pkts : List EgressPacket}

/-- The sorted entries of a capture. -/
theorem sorted_spec (drains : ∀ tallies, (drain tallies).Perm tallies) (pkts : List EgressPacket) :
    ((drain (pkts.foldl EgressFold.packet ⟨[], 0, 0⟩).byDst).mergeSort
        DstTally.heavierFirst).Perm ((destinations pkts).map (tallyOf pkts)) ∧
      ((drain (pkts.foldl EgressFold.packet ⟨[], 0, 0⟩).byDst).mergeSort
        DstTally.heavierFirst).Pairwise fun a b => a.heavierFirst b = true := by
  constructor
  · have entries := (drains (pkts.foldl EgressFold.packet ⟨[], 0, 0⟩).byDst)
    rw [foldl_packet] at entries ⊢
    exact ((List.mergeSort_perm _ _).trans entries).trans (byDst_perm pkts)
  · exact List.pairwise_mergeSort DstTally.heavierFirst_trans DstTally.heavierFirst_total _

theorem take_heaviest {ranking : List IpAddr} (ranked : Ranking pkts ranking)
    (exact_ : ∀ ip, (tallyOf pkts ip).bytes = bytesTo pkts ip) (n : Nat) :
    (ranking.take n).Nodup ∧ (∀ ip ∈ ranking.take n, ip ∈ destinations pkts) ∧
      (ranking.take n).length = min n (destinations pkts).length ∧
      (ranking.take n).Pairwise (fun a b => bytesTo pkts b < bytesTo pkts a ∨
        bytesTo pkts a = bytesTo pkts b ∧ a.order < b.order) ∧
      ∀ ip ∈ destinations pkts, ip ∉ ranking.take n → ∀ last, (ranking.take n).getLast? = some last →
        bytesTo pkts ip ≤ bytesTo pkts last := by
  have distinct : ranking.Nodup := ranked.perm.nodup_iff.mpr (List.nodup_dedup _)
  have within : (ranking.take n).Sublist ranking := List.take_sublist n ranking
  refine ⟨distinct.sublist within, fun ip mem => ranked.perm.mem_iff.mp (within.subset mem), ?_, ?_, ?_⟩
  · rw [List.length_take, ranked.perm.length_eq]
  · refine ((ranked.order.and distinct).sublist within).imp fun {a b} both => ?_
    obtain ⟨heavier, apart⟩ := both
    rw [DstTally.heavierFirst_iff, exact_, exact_] at heavier
    rcases heavier with less | ⟨same, first⟩
    · exact .inl less
    · refine .inr ⟨same, lt_of_le_of_ne first fun equal => ?_⟩
      exact apart (IpAddr.order_injective equal)
  · intro ip mem left last tail
    have split := List.take_append_drop n ranking
    have here := ranked.perm.mem_iff.mpr mem
    rw [← split, List.mem_append] at here
    have behind := here.resolve_left left
    have order := ranked.order
    rw [← split, List.pairwise_append] at order
    have heavier := order.2.2 last (List.mem_of_getLast? tail) ip behind
    rw [DstTally.heavierFirst_iff, exact_, exact_] at heavier
    omega

theorem clampI32_of_lt {n : Nat} (few : n < 2147483648) : clampI32 n = n := by
  unfold clampI32
  omega

theorem byDst_length (pkts : List EgressPacket) :
    (pkts.foldl EgressFold.packet ⟨[], 0, 0⟩).byDst.length = (destinations pkts).length := by
  have same := (byDst_perm pkts).length_eq
  rw [List.length_map] at same
  rw [foldl_packet]
  exact same

theorem destinations_length_le (pkts : List EgressPacket) :
    (destinations pkts).length ≤ pkts.length := by
  have shorter := (List.dedup_sublist (pkts.map EgressPacket.dstIp)).length_le
  rw [List.length_map] at shorter
  exact shorter

theorem tallyOf_bytes (few : pkts.length < 2147483648) (ip : IpAddr) :
    (tallyOf pkts ip).bytes = bytesTo pkts ip := by
  have bound := bytesTo_le pkts ip
  unfold tallyOf u64Max
  dsimp only
  omega

theorem egress_countsTraffic (drains : ∀ tallies, (drain tallies).Perm tallies)
    {frames : List (List UInt8)} (few : frames.length < 2147483648) (iface : String)
    (durationMs : Nat) (now : Int) :
    CountsTraffic (frames.filterMap dstAndLen) iface durationMs now
      (runEgressCapture dstAndLen drain (.ran frames) iface durationMs now) := by
  have mapped : (frames.filterMap dstAndLen).length ≤ frames.length := List.length_filterMap_le _ _
  have fewer := Nat.lt_of_le_of_lt mapped few
  unfold runEgressCapture egressOutcome egressScan
  dsimp only
  rw [foldEgress_eq]
  generalize frames.filterMap dstAndLen = pkts at fewer
  constructor
  case header =>
    have total := totalBytes_le pkts
    have bytes : min (totalBytes pkts) u64Max = totalBytes pkts := by
      unfold u64Max
      omega
    have size := Nat.lt_of_le_of_lt (destinations_length_le pkts) fewer
    dsimp only
    rw [byDst_length, clampI32_of_lt size, foldl_packet]
    dsimp only
    rw [clampI32_of_lt fewer, bytes]
  case rows =>
    obtain ⟨perm, order⟩ := sorted_spec drains pkts
    obtain ⟨ranking, ranked, sorted⟩ := exists_ranking perm order
    obtain ⟨once, known, length, ordered, rest⟩ := take_heaviest ranked (tallyOf_bytes fewer) egressTopN
    refine ⟨ranking.take egressTopN, once, known, length, ?_, ordered, rest⟩
    dsimp only
    rw [sorted, ← List.map_take, List.map_map, List.map_map]
    refine List.map_congr_left fun ip _ => ?_
    have sent := Nat.lt_of_le_of_lt (packetsTo_le pkts ip) fewer
    simp only [Function.comp_apply, tallyOf_bytes fewer]
    exact congrArg (fun n => (⟨now, ip.text, n, bytesTo pkts ip⟩ : EgressDst)) (clampI32_of_lt sent)

/-- Neither the order of the frames nor that of the map's entries enters into a scan. -/
theorem egress_of_perm {drain' : List DstTally → List DstTally}
    (drains : ∀ tallies, (drain tallies).Perm tallies)
    (drains' : ∀ tallies, (drain' tallies).Perm tallies) {frames frames' : List (List UInt8)}
    (perm : frames.Perm frames') :
    egressOutcome dstAndLen drain (.ran frames) = egressOutcome dstAndLen drain' (.ran frames') := by
  have mapped : (frames.filterMap dstAndLen).Perm (frames'.filterMap dstAndLen) :=
    perm.filterMap dstAndLen
  obtain ⟨here, order⟩ := sorted_spec drains (frames.filterMap dstAndLen)
  obtain ⟨there, order'⟩ := sorted_spec drains' (frames'.filterMap dstAndLen)
  have entries : ((destinations (frames'.filterMap dstAndLen)).map
      (tallyOf (frames'.filterMap dstAndLen))).Perm
        ((destinations (frames.filterMap dstAndLen)).map
          (tallyOf (frames.filterMap dstAndLen))) := by
    have same : tallyOf (frames'.filterMap dstAndLen) = tallyOf (frames.filterMap dstAndLen) :=
      funext (tallyOf_perm mapped.symm)
    rw [same]
    exact (destinations_perm mapped.symm).map _
  have sorted := sorted_unique here (there.trans entries) order order'
  have packets := mapped.length_eq
  have bytes : totalBytes (frames.filterMap dstAndLen) = totalBytes (frames'.filterMap dstAndLen) :=
    (mapped.map _).sum_eq
  have size : ((frames.filterMap dstAndLen).foldl EgressFold.packet ⟨[], 0, 0⟩).byDst.length =
      ((frames'.filterMap dstAndLen).foldl EgressFold.packet ⟨[], 0, 0⟩).byDst.length := by
    rw [byDst_length, byDst_length]
    exact (destinations_perm mapped).length_eq
  unfold egressOutcome
  dsimp only
  rw [foldEgress_eq, foldEgress_eq, sorted, size]
  rw [foldl_packet, foldl_packet]
  dsimp only
  rw [packets, bytes]

end

theorem egress_conserves_traffic (dstAndLen : List UInt8 → Option EgressPacket)
    (drain : List DstTally → List DstTally) (drains : ∀ tallies, (drain tallies).Perm tallies)
    (iface : String) (durationMs : Nat) (now : Int) :
    (∀ frames : List (List UInt8), frames.length < 2147483648 →
      CountsTraffic (frames.filterMap dstAndLen) iface durationMs now
        (runEgressCapture dstAndLen drain (.ran frames) iface durationMs now)) ∧
      (∀ frames frames' : List (List UInt8), frames.Perm frames' →
        runEgressCapture dstAndLen drain (.ran frames) iface durationMs now =
          runEgressCapture dstAndLen drain (.ran frames') iface durationMs now) ∧
      (∀ drain' : List DstTally → List DstTally, (∀ tallies, (drain' tallies).Perm tallies) →
        ∀ frames, runEgressCapture dstAndLen drain' (.ran frames) iface durationMs now =
          runEgressCapture dstAndLen drain (.ran frames) iface durationMs now) ∧
      (∀ reason, runEgressCapture dstAndLen drain (.couldNotStart reason) iface durationMs now =
        (⟨now, iface, "SKIP", some reason, durationMs, 0, 0, 0⟩, [])) ∧
      ∀ frames : List (List UInt8), frames.filterMap dstAndLen = [] →
        runEgressCapture dstAndLen drain (.ran frames) iface durationMs now =
          (⟨now, iface, "OK", none, durationMs, 0, 0, 0⟩, []) := by
  refine ⟨fun frames few => egress_countsTraffic drains few iface durationMs now,
    fun frames frames' perm => ?_, fun drain' drains' frames => ?_, fun reason => rfl,
    fun frames quiet => ?_⟩
  · exact congrArg (egressScan iface durationMs now) (egress_of_perm drains drains perm)
  · exact congrArg (egressScan iface durationMs now)
      (egress_of_perm drains' drains (List.Perm.refl frames))
  · have fold : foldEgress dstAndLen frames = ⟨[], 0, 0⟩ := by
      rw [foldEgress_eq, quiet]
      rfl
    have handed : drain [] = [] := List.perm_nil.mp (drains [])
    unfold runEgressCapture egressOutcome
    dsimp only
    rw [fold, handed, List.mergeSort_nil]
    rfl

/-- Frames whose first byte is the last of a destination's address, a hundred bytes each. -/
def oneByteAddress : List UInt8 → Option EgressPacket
  | [] => none
  | b :: _ => some ⟨.v4 #v[203, 0, 113, b], 100⟩

theorem egress_conserves_traffic_pair :
    CountsTraffic ([[7], [], [7], [9]].filterMap oneByteAddress) "en0" 5000 1
        (runEgressCapture oneByteAddress List.reverse (.ran [[7], [], [7], [9]]) "en0" 5000 1) ∧
      runEgressCapture oneByteAddress List.reverse (.ran [[7], [9]]) "en0" 5000 1 =
        runEgressCapture oneByteAddress List.reverse (.ran [[9], [7]]) "en0" 5000 1 := by
  obtain ⟨counts, independent, _⟩ := egress_conserves_traffic oneByteAddress List.reverse
    List.reverse_perm "en0" 5000 1
  exact ⟨counts [[7], [], [7], [9]] (by decide), independent [[7], [9]] [[9], [7]] (.swap ..)⟩

end NetObserver
