import Mathlib.Data.Prod.Lex
import Mathlib.Data.String.Basic
import NetObserver.LocalAddresses
import NetObserver.RunHeads
import NetObserver.Samples

/-! A reading of the neighbours: the two address caches as they are printed, one row for each
device. -/

namespace NetObserver

open StdText

/-- Whether the interface that is read, when it is known, is the one named. -/
def onIface (iface : Option String) (name : List Char) : Bool := iface.all (·.toList == name)

def parseArpLine (iface : Option String) (line : List Char) : Option NeighborObs := do
  let (_, rest) ← splitOnceAt [' ', '('] line
  let (ip, rest) ← splitOnceAt (')' :: atText) rest
  match splitWhitespace rest with
  | macRaw :: ['o', 'n'] :: name :: _ =>
    if onIface iface name then
      (normalizeMac (String.ofList macRaw)).map fun mac =>
        ⟨mac, String.ofList ip, .arp, none, .unknown⟩
    else none
  | _ => none

def parseArpTable (out : List Char) (iface : Option String) : List NeighborObs :=
  (lines out).filterMap (parseArpLine iface)

def parseNdpLine (iface : Option String) (line : List Char) : Option NeighborObs :=
  match splitWhitespace line with
  | addr :: macRaw :: netif :: _ =>
    if onIface iface netif then
      (normalizeMac (String.ofList macRaw)).map fun mac =>
        ⟨mac, String.ofList (splitOnce '%' addr).1, .ndp, none, .unknown⟩
    else none
  | _ => none

/-- The first line is the header. -/
def parseNdpTable (out : List Char) (iface : Option String) : List NeighborObs :=
  ((lines out).drop 1).filterMap (parseNdpLine iface)

structure NeighborReading where
  networkKey : Option String
  iface : Option String
  neighbors : List NeighborObs

/-- What the sort compares: the device, then the address as text. -/
def NeighborObs.sortKey (n : NeighborObs) : String ×ₗ String := toLex (n.mac, n.ip)

def NeighborObs.sortedBefore (a b : NeighborObs) : Bool := decide (a.sortKey ≤ b.sortKey)

/-- `None` only when neither command answered. -/
def readNeighbors (networkKey iface : Option String) (arp ndp : Option (List Char)) :
    Option NeighborReading :=
  if arp.isNone && ndp.isNone then none
  else
    let neighbors := (arp.elim [] (parseArpTable · iface)) ++ (ndp.elim [] (parseNdpTable · iface))
    some ⟨networkKey, iface, runHeads NeighborObs.mac (neighbors.mergeSort NeighborObs.sortedBefore)⟩

/-- Nothing, or a blank first. -/
def Apart (s : List Char) : Prop := ∀ c ∈ s.head?, Dhcp.isWhitespace c = true

/-- An entry of the ARP table: behind `on`, the interface and what follows it. -/
structure ArpRow extends ArpEntry where
  iface : List Char
  tail : List Char
  names : behind = iface ++ tail
  iface_plain : Unspaced iface
  iface_some : iface ≠ []
  tail_apart : Apart tail

/-- An entry of the NDP table: the address with its zone, the device, the interface and what follows
it, in columns. -/
structure NdpRow where
  addr : List Char
  zone : Option (List Char)
  addrPad : Nat
  mac : List Char
  macPad : Nat
  iface : List Char
  tail : List Char
  addr_plain : Unspaced addr
  addr_colon : ':' ∈ addr
  addr_bare : '%' ∉ addr
  zone_plain : ∀ z ∈ zone, Unspaced z
  mac_plain : Unspaced mac
  mac_some : mac ≠ []
  iface_plain : Unspaced iface
  iface_some : iface ≠ []
  tail_apart : Apart tail
  tail_plain : SingleLine tail

namespace NdpRow

/-- At least one blank. -/
def pad (n : Nat) : List Char := List.replicate (n + 1) ' '

def zoned (e : NdpRow) : List Char := e.addr ++ e.zone.elim [] ('%' :: ·)

def line (e : NdpRow) : List Char :=
  e.zoned ++ (pad e.addrPad ++ (e.mac ++ (pad e.macPad ++ (e.iface ++ e.tail))))

/-- What is recorded of the entry, if it is of the interface and names a unicast device. -/
def obs (iface : Option String) (e : NdpRow) : Option NeighborObs :=
  if onIface iface e.iface then
    (normalizeMac (String.ofList e.mac)).map fun mac =>
      ⟨mac, String.ofList e.addr, .ndp, none, .unknown⟩
  else none

end NdpRow

/-- The same of an entry of the ARP table. -/
def ArpRow.obs (iface : Option String) (e : ArpRow) : Option NeighborObs :=
  if onIface iface e.iface then
    (normalizeMac (String.ofList e.mac)).map fun mac =>
      ⟨mac, (IpAddr.v4 e.ip).text, .arp, none, .unknown⟩
  else none

def arpTable (rows : List ArpRow) : List Char := printed (rows.map fun e => e.toArpEntry.line)

structure NdpTable where
  header : List Char
  rows : List NdpRow
  header_plain : SingleLine header

def NdpTable.text (t : NdpTable) : List Char := printed (t.header :: t.rows.map NdpRow.line)

section

variable {iface : Option String}

theorem splitWhitespace_apart {word tail : List Char} (plain : Unspaced word) (some_ : word ≠ [])
    (apart : Apart tail) : ∃ more, splitWhitespace (word ++ tail) = word :: more := by
  cases tail with
  | nil =>
    rw [List.append_nil, splitWhitespace_word plain some_]
    exact ⟨[], rfl⟩
  | cons c tail => exact ⟨_, splitWhitespace_cons plain some_ (apart c rfl)⟩

theorem splitWhitespace_pad {word rest : List Char} (plain : Unspaced word) (some_ : word ≠ [])
    (n : Nat) : splitWhitespace (word ++ (NdpRow.pad n ++ rest)) = word :: splitWhitespace rest := by
  have blank : Dhcp.isWhitespace ' ' = true := rfl
  have skipped : splitWhitespace (List.replicate n ' ' ++ rest) = splitWhitespace rest := by
    induction n with
    | zero => rfl
    | succ n ih => rw [List.replicate_succ, List.cons_append, splitWhitespace_space blank, ih]
  unfold NdpRow.pad
  rw [List.replicate_succ, List.cons_append, splitWhitespace_cons plain some_ blank, skipped]

namespace ArpRow

variable (e : ArpRow)

theorem parseArpLine_line : parseArpLine iface e.toArpEntry.line = e.obs iface := by
  let entry := e.mac ++ ' ' :: (['o', 'n'] ++ ' ' :: (e.iface ++ e.tail))
  have eq : e.toArpEntry.line =
      e.host ++ ([' ', '('] ++ (addrText e.ip ++ (')' :: atText ++ entry))) := by
    unfold ArpEntry.line
    rw [e.names]
    rfl
  have opened : ¬ [' ', '('] <:+: e.host ++ [' ', '('].dropLast := by
    intro held
    have short := ((Infixes.infix_append_right_iff (e.host_plain.free rfl)).mp held).length_le
    exact absurd short (by decide)
  have closed : ¬ ')' :: atText <:+: addrText e.ip ++ (')' :: atText).dropLast := by
    intro held
    have text := DottedQuad.notMem_text e.ip (c := ')') rfl (by decide)
    have short := ((Infixes.infix_append_right_iff text).mp held).length_le
    exact absurd short (by decide)
  have on_ : Unspaced ['o', 'n'] := unspaced_of_all rfl
  have blank : Dhcp.isWhitespace ' ' = true := rfl
  obtain ⟨more, words⟩ := splitWhitespace_apart e.iface_plain e.iface_some e.tail_apart
  have fields : splitWhitespace entry = e.mac :: ['o', 'n'] :: e.iface :: more := by
    rw [splitWhitespace_cons e.mac_plain e.mac_some blank,
      splitWhitespace_cons on_ (by decide) blank, words]
  unfold parseArpLine obs
  rw [eq, splitOnceAt_append (by decide) opened, Option.bind_eq_bind, Option.bind_some]
  dsimp only
  rw [splitOnceAt_append (by decide) closed, Option.bind_some, fields]
  unfold addrText
  rw [String.ofList_toList]
  rfl

end ArpRow

theorem parseArpTable_arpTable (rows : List ArpRow) :
    parseArpTable (arpTable rows) iface = rows.filterMap (ArpRow.obs iface) := by
  have plain : ∀ l ∈ rows.map fun e => e.toArpEntry.line, SingleLine l := by
    intro l mem
    obtain ⟨e, -, rfl⟩ := List.mem_map.mp mem
    exact e.line_plain
  unfold parseArpTable arpTable
  rw [lines_printed plain, List.filterMap_map]
  apply List.filterMap_congr
  intro e mem
  exact e.parseArpLine_line

namespace NdpRow

variable (e : NdpRow)

theorem zoned_plain : Unspaced e.zoned := by
  intro c mem
  unfold zoned at mem
  rcases List.mem_append.mp mem with own | zone
  · exact e.addr_plain c own
  · cases eq : e.zone with
    | none =>
      rw [eq] at zone
      cases zone
    | some z =>
      rw [eq, Option.elim_some, List.mem_cons] at zone
      rcases zone with rfl | zone
      · rfl
      · exact e.zone_plain z eq c zone

theorem zoned_some : e.zoned ≠ [] := by
  have colon := List.mem_append_left (e.zone.elim [] ('%' :: ·)) e.addr_colon
  exact List.ne_nil_of_mem colon

theorem splitOnce_zoned : (splitOnce '%' e.zoned).1 = e.addr := by
  unfold zoned
  cases e.zone with
  | none =>
    rw [Option.elim_none, List.append_nil, splitOnce_absent e.addr_bare]
  | some z => rw [Option.elim_some, splitOnce_append e.addr_bare]

theorem pad_plain (n : Nat) : SingleLine (pad n) := by
  constructor
  · intro mem
    exact absurd (List.eq_of_mem_replicate mem) (by decide)
  · intro mem
    exact absurd (List.eq_of_mem_replicate mem) (by decide)

theorem line_plain : SingleLine e.line := by
  have zoned := e.zoned_plain
  unfold SingleLine line
  simp only [List.mem_append, not_or]
  constructor
  · exact ⟨zoned.free rfl, (pad_plain _).1, e.mac_plain.free rfl, (pad_plain _).1,
      e.iface_plain.free rfl, e.tail_plain.1⟩
  · exact ⟨zoned.free rfl, (pad_plain _).2, e.mac_plain.free rfl, (pad_plain _).2,
      e.iface_plain.free rfl, e.tail_plain.2⟩

theorem parseNdpLine_line : parseNdpLine iface e.line = e.obs iface := by
  obtain ⟨more, words⟩ := splitWhitespace_apart e.iface_plain e.iface_some e.tail_apart
  have fields : splitWhitespace e.line = e.zoned :: e.mac :: e.iface :: more := by
    unfold line
    rw [splitWhitespace_pad e.zoned_plain e.zoned_some,
      splitWhitespace_pad e.mac_plain e.mac_some, words]
  unfold parseNdpLine obs
  rw [fields]
  dsimp only
  rw [e.splitOnce_zoned]

end NdpRow

theorem parseNdpTable_text (t : NdpTable) :
    parseNdpTable t.text iface = t.rows.filterMap (NdpRow.obs iface) := by
  have plain : ∀ l ∈ t.header :: t.rows.map NdpRow.line, SingleLine l := by
    intro l mem
    rcases List.mem_cons.mp mem with rfl | mem
    · exact t.header_plain
    · obtain ⟨e, -, rfl⟩ := List.mem_map.mp mem
      exact e.line_plain
  unfold parseNdpTable NdpTable.text
  rw [lines_printed plain, List.drop_succ_cons, List.drop_zero, List.filterMap_map]
  apply List.filterMap_congr
  intro e mem
  exact e.parseNdpLine_line

end

/-- What the two tables tell of the interface, entry by entry. -/
def cacheEntries (iface : Option String) (arp : List ArpRow) (ndp : List NdpRow) :
    List NeighborObs :=
  arp.filterMap (ArpRow.obs iface) ++ ndp.filterMap (NdpRow.obs iface)

def readTables (networkKey iface : Option String) (arp : List ArpRow) (ndp : NdpTable) :
    Option NeighborReading :=
  readNeighbors networkKey iface (some (arpTable arp)) (some ndp.text)

/-- One row for each device of the interface, under one of its addresses, an IPv4 one if it has any,
and the same whatever the order of the entries. -/
structure ReadsDevices (networkKey iface : Option String) (arp : List ArpRow) (ndp : NdpTable)
    (reading : NeighborReading) : Prop where
  answered : readTables networkKey iface arp ndp = some reading
  once : (reading.neighbors.map NeighborObs.mac).Nodup
  devices : ∀ mac, mac ∈ reading.neighbors.map NeighborObs.mac ↔
    mac ∈ (cacheEntries iface arp ndp.rows).map NeighborObs.mac
  own : ∀ n ∈ reading.neighbors, ∃ e ∈ cacheEntries iface arp ndp.rows, e.mac = n.mac ∧ e.ip = n.ip
  v4 : ∀ n ∈ reading.neighbors, n.mac ∈ (arp.filterMap (ArpRow.obs iface)).map NeighborObs.mac →
    ∃ a : Ipv4Addr, n.ip = (IpAddr.v4 a).text
  unordered : ∀ (arp' : List ArpRow) (ndp' : NdpTable), arp'.Perm arp → ndp'.rows.Perm ndp.rows →
    readTables networkKey iface arp' ndp' = some reading

/-- Of a device that is in both tables no NDP address is, as text, in front of all its ARP ones. -/
def V4SortsFirst (iface : Option String) (arp : List ArpRow) (ndp : List NdpRow) : Prop :=
  ∀ n ∈ ndp.filterMap (NdpRow.obs iface),
    n.mac ∈ (arp.filterMap (ArpRow.obs iface)).map NeighborObs.mac →
      ∃ a ∈ arp.filterMap (ArpRow.obs iface), a.mac = n.mac ∧ a.ip < n.ip

section

variable {networkKey iface : Option String} {arp arp' : List ArpRow} {ndp ndp' : List NdpRow}
  {a b n : NeighborObs} {entries : List NeighborObs}

theorem obs_arp (mem : n ∈ arp.filterMap (ArpRow.obs iface)) :
    ∃ ip : Ipv4Addr, n = ⟨n.mac, (IpAddr.v4 ip).text, .arp, none, .unknown⟩ := by
  obtain ⟨e, -, eq⟩ := List.mem_filterMap.mp mem
  unfold ArpRow.obs at eq
  split at eq
  next =>
    obtain ⟨mac, -, rfl⟩ := Option.map_eq_some_iff.mp eq
    exact ⟨e.ip, rfl⟩
  next => cases eq

theorem obs_ndp (mem : n ∈ ndp.filterMap (NdpRow.obs iface)) :
    n = ⟨n.mac, n.ip, .ndp, none, .unknown⟩ ∧ ':' ∈ n.ip.toList := by
  obtain ⟨e, -, eq⟩ := List.mem_filterMap.mp mem
  unfold NdpRow.obs at eq
  split at eq
  next =>
    obtain ⟨mac, -, rfl⟩ := Option.map_eq_some_iff.mp eq
    refine ⟨rfl, ?_⟩
    rw [String.toList_ofList]
    exact e.addr_colon
  next => cases eq

theorem ip_ne_of_tables (first : a ∈ arp.filterMap (ArpRow.obs iface))
    (second : n ∈ ndp.filterMap (NdpRow.obs iface)) : a.ip ≠ n.ip := by
  intro same
  obtain ⟨ip, eq⟩ := obs_arp first
  have colon := (obs_ndp second).2
  rw [← same, eq] at colon
  exact DottedQuad.notMem_text ip rfl (by decide) colon

/-- An entry is told by what the sort compares. -/
theorem cacheEntries_sortKey (first : a ∈ cacheEntries iface arp ndp)
    (second : b ∈ cacheEntries iface arp ndp) (same : a.sortKey = b.sortKey) : a = b := by
  unfold NeighborObs.sortKey at same
  obtain ⟨mac, ip⟩ := Prod.mk.inj (toLex_inj.mp same)
  rcases List.mem_append.mp first with arpA | ndpA
  · obtain ⟨_, eqA⟩ := obs_arp arpA
    rcases List.mem_append.mp second with arpB | ndpB
    · obtain ⟨_, eqB⟩ := obs_arp arpB
      rw [eqA, eqB] at ip
      rw [eqA, eqB, mac]
      exact congrArg (NeighborObs.mk _ · .arp none .unknown) ip
    · exact absurd ip (ip_ne_of_tables arpA ndpB)
  · rcases List.mem_append.mp second with arpB | ndpB
    · exact absurd ip.symm (ip_ne_of_tables arpB ndpA)
    · rw [(obs_ndp ndpA).1, (obs_ndp ndpB).1, mac, ip]

theorem cacheEntries_perm (arps : arp'.Perm arp) (ndps : ndp'.Perm ndp) :
    (cacheEntries iface arp' ndp').Perm (cacheEntries iface arp ndp) :=
  (arps.filterMap _).append (ndps.filterMap _)

namespace NeighborObs

theorem sortedBefore_iff : a.sortedBefore b = true ↔ a.sortKey ≤ b.sortKey := decide_eq_true_iff

theorem sorted_entries (entries : List NeighborObs) :
    (entries.mergeSort sortedBefore).Pairwise fun a b => a.sortKey ≤ b.sortKey := by
  have trans_ : ∀ a b c : NeighborObs, a.sortedBefore b = true → b.sortedBefore c = true →
      a.sortedBefore c = true := by
    intro a b c
    rw [sortedBefore_iff, sortedBefore_iff, sortedBefore_iff]
    exact le_trans
  have total : ∀ a b : NeighborObs, (a.sortedBefore b || b.sortedBefore a) = true := by
    intro a b
    rw [Bool.or_eq_true, sortedBefore_iff, sortedBefore_iff]
    exact le_total _ _
  exact (List.pairwise_mergeSort trans_ total entries).imp sortedBefore_iff.mp

theorem keepsTogether : KeepsTogether mac fun a b => a.sortKey ≤ b.sortKey where
  refl _ := le_rfl
  trans := le_trans
  block := by
    intro a b c first second same
    have front := Prod.Lex.monotone_fst _ _ first
    have behind := Prod.Lex.monotone_fst _ _ second
    exact le_antisymm front (behind.trans_eq same.symm)

theorem ip_le_of_sortKey (before : a.sortKey ≤ b.sortKey) (same : a.mac = b.mac) : a.ip ≤ b.ip := by
  rcases (Prod.Lex.le_iff ..).mp before with other | ⟨-, le⟩
  · exact absurd same other.ne
  · exact le

end NeighborObs

/-- The rows of a reading: of each device its first entry in the sorted list. -/
def listedDevices (entries : List NeighborObs) : List NeighborObs :=
  runHeads NeighborObs.mac (entries.mergeSort NeighborObs.sortedBefore)

theorem readTables_eq (networkKey iface : Option String) (arp : List ArpRow) (ndp : NdpTable) :
    readTables networkKey iface arp ndp =
      some ⟨networkKey, iface, listedDevices (cacheEntries iface arp ndp.rows)⟩ := by
  unfold readTables readNeighbors
  rw [Option.elim_some, Option.elim_some, parseArpTable_arpTable, parseNdpTable_text]
  rfl

theorem mem_of_mem_listedDevices (mem : n ∈ listedDevices entries) : n ∈ entries :=
  List.mem_mergeSort.mp (mem_of_mem_runHeads mem)

theorem listedDevices_nodup (entries : List NeighborObs) :
    ((listedDevices entries).map NeighborObs.mac).Nodup :=
  runHeads_nodup NeighborObs.keepsTogether (NeighborObs.sorted_entries entries)

theorem listedDevices_macs {mac : String} : mac ∈ (listedDevices entries).map NeighborObs.mac ↔
    mac ∈ entries.map NeighborObs.mac := by
  constructor
  · intro mem
    obtain ⟨n, listed, rfl⟩ := List.mem_map.mp mem
    exact List.mem_map_of_mem (mem_of_mem_listedDevices listed)
  · intro mem
    obtain ⟨n, entry, rfl⟩ := List.mem_map.mp mem
    exact runHeads_keys NeighborObs.mac (List.mem_mergeSort.mpr entry)

/-- The row of a device has the least of its addresses, as text. -/
theorem listedDevices_least (listed : n ∈ listedDevices entries) (entry : a ∈ entries)
    (same : a.mac = n.mac) : n.ip ≤ a.ip := by
  have least := runHeads_least NeighborObs.keepsTogether (NeighborObs.sorted_entries entries) listed
    (List.mem_mergeSort.mpr entry) same
  exact NeighborObs.ip_le_of_sortKey least same.symm

theorem listedDevices_perm (arps : arp'.Perm arp) (ndps : ndp'.Perm ndp) :
    listedDevices (cacheEntries iface arp' ndp') = listedDevices (cacheEntries iface arp ndp) := by
  have perm : (cacheEntries iface arp' ndp').Perm (cacheEntries iface arp ndp) :=
    cacheEntries_perm arps ndps
  unfold listedDevices
  congr 1
  refine List.Perm.eq_of_pairwise ?_ (NeighborObs.sorted_entries _) (NeighborObs.sorted_entries _)
    ((List.mergeSort_perm _ _).trans (perm.trans (List.mergeSort_perm _ _).symm))
  intro a b first second before behind
  rw [List.mem_mergeSort] at first second
  exact cacheEntries_sortKey (perm.mem_iff.mp first) second (le_antisymm before behind)

/-- A device of the ARP table keeps an IPv4 address exactly when one of them sorts in front of its
IPv6 ones. -/
theorem listedDevices_v4_iff :
    (∀ n ∈ listedDevices (cacheEntries iface arp ndp),
      n.mac ∈ (arp.filterMap (ArpRow.obs iface)).map NeighborObs.mac →
        ∃ a : Ipv4Addr, n.ip = (IpAddr.v4 a).text) ↔ V4SortsFirst iface arp ndp := by
  constructor
  · intro v4 n second both
    have entry : n ∈ cacheEntries iface arp ndp := List.mem_append_right _ second
    obtain ⟨x, listed, same⟩ := List.mem_map.mp
      (listedDevices_macs.mpr (List.mem_map_of_mem (f := NeighborObs.mac) entry))
    rw [← same] at both
    obtain ⟨ip, text⟩ := v4 x listed both
    have le : x.ip ≤ n.ip := listedDevices_least listed entry same.symm
    rcases List.mem_append.mp (mem_of_mem_listedDevices listed) with own | other
    · exact ⟨x, own, same, lt_of_le_of_ne le (ip_ne_of_tables own second)⟩
    · have colon := (obs_ndp other).2
      rw [text] at colon
      exact absurd colon (DottedQuad.notMem_text ip rfl (by decide))
  · intro first n listed both
    rcases List.mem_append.mp (mem_of_mem_listedDevices listed) with own | other
    · obtain ⟨ip, eq⟩ := obs_arp own
      exact ⟨ip, congrArg NeighborObs.ip eq⟩
    · obtain ⟨a, own, same, lt⟩ := first n other both
      have le := listedDevices_least listed (List.mem_append_left _ own) same
      exact absurd lt (not_lt.mpr le)

/-- The two caches are read as one row a device, in no order of theirs; an address of the ARP table
is kept exactly when it sorts first. -/
theorem readTables_devices_iff (networkKey iface : Option String) (arp : List ArpRow)
    (ndp : NdpTable) :
    (∃ reading, ReadsDevices networkKey iface arp ndp reading) ↔
      V4SortsFirst iface arp ndp.rows := by
  have eq := readTables_eq networkKey iface arp ndp
  constructor
  · intro ⟨reading, reads⟩
    have same := reads.answered
    rw [eq, Option.some.injEq] at same
    have v4 := reads.v4
    rw [← same] at v4
    exact listedDevices_v4_iff.mp v4
  · intro first
    refine ⟨_, eq, listedDevices_nodup _, fun mac => listedDevices_macs, ?_,
      listedDevices_v4_iff.mpr first, ?_⟩
    · intro n listed
      exact ⟨n, mem_of_mem_listedDevices listed, rfl, rfl⟩
    · intro arp' ndp' arps ndps
      rw [readTables_eq, listedDevices_perm arps ndps]

end

def dualStackMac : List Char := "a4:83:e7:1b:2c:3d".toList

theorem unnamed_unspaced : Unspaced ['?'] := unspaced_of_all rfl

def dualStackArp : ArpRow where
  host := ['?']
  ip := ⟨#[203, 0, 113, 5], rfl⟩
  mac := dualStackMac
  behind := ['e', 'n', '0']
  host_plain := unnamed_unspaced
  mac_plain := unspaced_of_all rfl
  mac_some := List.cons_ne_nil _ _
  behind_plain := ⟨by decide, by decide⟩
  iface := ['e', 'n', '0']
  tail := []
  names := rfl
  iface_plain := unspaced_of_all rfl
  iface_some := List.cons_ne_nil _ _
  tail_apart := fun _ mem => nomatch mem

def dualStackNdp : NdpTable where
  header := "Neighbor".toList
  rows := [{
    addr := "2001:db8::5".toList
    zone := none
    addrPad := 0
    mac := dualStackMac
    macPad := 0
    iface := ['e', 'n', '0']
    tail := []
    addr_plain := unspaced_of_all rfl
    addr_colon := by decide
    addr_bare := by decide
    zone_plain := fun _ mem => nomatch mem
    mac_plain := unspaced_of_all rfl
    mac_some := List.cons_ne_nil _ _
    iface_plain := unspaced_of_all rfl
    iface_some := List.cons_ne_nil _ _
    tail_apart := fun _ mem => nomatch mem
    tail_plain := ⟨by decide, by decide⟩ }]
  header_plain := ⟨by decide, by decide⟩

/-- A device at a public address is listed under its IPv6 one. -/
theorem dualStack_listed_v6 :
    ¬ ∃ reading, ReadsDevices none (some "en0") [dualStackArp] dualStackNdp reading := by
  intro ⟨reading, reads⟩
  have arps : [dualStackArp].filterMap (ArpRow.obs (some "en0")) =
      [⟨"a4:83:e7:1b:2c:3d", "203.0.113.5", .arp, none, .unknown⟩] := rfl
  have ndps : dualStackNdp.rows.filterMap (NdpRow.obs (some "en0")) =
      [⟨"a4:83:e7:1b:2c:3d", "2001:db8::5", .ndp, none, .unknown⟩] := rfl
  have same := reads.answered
  rw [readTables_eq, Option.some.injEq] at same
  have v4 := reads.v4
  rw [← same] at v4
  have first := listedDevices_v4_iff.mp v4
  unfold V4SortsFirst at first
  rw [arps, ndps] at first
  obtain ⟨a, own, -, lt⟩ := first _ (List.mem_singleton_self _) (List.mem_singleton_self _)
  rw [List.mem_singleton.mp own] at lt
  exact absurd lt (by decide)

end NetObserver
