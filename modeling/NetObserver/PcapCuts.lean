import Mathlib.Data.Nat.Find
import NetObserver.Frame
import NetObserver.PcapStream

/-! A savefile read back whole, and what is noticed of a copy of it that was cut short. -/

namespace NetObserver

open ByteOrder

inductive Magic where
  | beMicros
  | leMicros
  | beNanos
  | leNanos
deriving DecidableEq

namespace Magic

def bytes : Magic → List UInt8
  | beMicros => [0xa1, 0xb2, 0xc3, 0xd4]
  | leMicros => [0xd4, 0xc3, 0xb2, 0xa1]
  | beNanos => [0xa1, 0xb2, 0x3c, 0x4d]
  | leNanos => [0x4d, 0x3c, 0xb2, 0xa1]

def layout : Magic → Layout
  | beMicros => ⟨false, false⟩
  | leMicros => ⟨true, false⟩
  | beNanos => ⟨false, true⟩
  | leNanos => ⟨true, true⟩

end Magic

def Layout.put (l : Layout) (v : Nat) : List UInt8 :=
  if l.littleEndian then leBytes 4 v else beBytes 4 v

/-- A record as it is saved: of at most the length a capture can hold. -/
structure SavedRecord where
  tsSec : UInt32
  tsFrac : UInt32
  data : List UInt8
  bound : data.length ≤ maxInclLen

namespace SavedRecord

def bytes (l : Layout) (r : SavedRecord) : List UInt8 :=
  l.put r.tsSec.toNat ++ l.put r.tsFrac.toNat ++ l.put r.data.length ++ l.put r.data.length ++ r.data

def size (r : SavedRecord) : Nat := recordHeader + r.data.length

/-- The record as it is read back, its moment in microseconds. -/
def read (l : Layout) (r : SavedRecord) : Record :=
  let frac := if l.nanos then r.tsFrac.toNat / 1000 else r.tsFrac.toNat
  ⟨r.tsSec.toNat * 1000000 + (frac : Nat), r.data⟩

end SavedRecord

/-- Version 2.4, no time zone, no accuracy, the largest snapshot length, Ethernet. -/
def saveHeader (m : Magic) : List UInt8 :=
  m.bytes ++ m.layout.put 131072 ++ m.layout.put 0 ++ m.layout.put 0 ++ m.layout.put 262144 ++
    m.layout.put 1

def saveRecords (l : Layout) (records : List SavedRecord) : List UInt8 :=
  records.flatMap (SavedRecord.bytes l)

def savefile (m : Magic) (records : List SavedRecord) : List UInt8 :=
  saveHeader m ++ saveRecords m.layout records

@[simp] theorem Layout.put_length (l : Layout) (v : Nat) : (l.put v).length = 4 := by
  unfold Layout.put
  split <;> simp

theorem Layout.u32_put (l : Layout) {v : Nat} (fits : v < 4294967296) : l.u32 (l.put v) = v := by
  unfold Layout.u32 Layout.put
  split
  · exact leNat_leBytes fits
  · exact beNat_beBytes fits

theorem SavedRecord.bytes_length (l : Layout) (r : SavedRecord) :
    (r.bytes l).length = r.size := by
  simp [bytes, size, recordHeader]
  omega

theorem saveHeader_length (m : Magic) : (saveHeader m).length = globalHeader := by
  cases m <;> simp [saveHeader, Magic.bytes, globalHeader]

theorem parseGlobalHeader_magic (m : Magic) {header : List UInt8} (magic : header.take 4 = m.bytes) :
    ∃ linktype, parseGlobalHeader header = .ok (m.layout, linktype) := by
  unfold parseGlobalHeader
  rw [magic]
  cases m with
  | beMicros => exact ⟨_, rfl⟩
  | leMicros => exact ⟨_, rfl⟩
  | beNanos => exact ⟨_, rfl⟩
  | leNanos => exact ⟨_, rfl⟩

namespace Reader

theorem readExact_append (xs ys : List UInt8) (fault : Option IoError) :
    readExact ⟨xs ++ ys, fault⟩ xs.length = (.ok xs, ⟨ys, fault⟩) := by
  simp [readExact]

theorem readExact_short {r : Reader} {n : Nat} (short : r.bytes.length < n) :
    r.readExact n = (.error (r.fault.getD .eof), { r with bytes := [] }) := by
  rw [readExact, if_neg (by omega)]

end Reader

namespace PcapStream

/-- A stream past its global header. -/
def behind (l : Layout) (bytes : List UInt8) : PcapStream := ⟨⟨bytes, none⟩, some l⟩

theorem nextRecord_behind (l : Layout) (bytes : List UInt8) :
    (behind l bytes).nextRecord = nextBehindHeader ⟨bytes, none⟩ l := rfl

theorem nextRecord_new_short {bytes : List UInt8} (short : bytes.length < globalHeader) :
    (new ⟨bytes, none⟩).nextRecord = (.error .eof, new ⟨[], none⟩) := by
  have read : (new ⟨bytes, none⟩).readGlobalHeader = (.error .eof, new ⟨[], none⟩) := by
    rw [readGlobalHeader, new, Reader.readExact_short short]
    rfl
  simp only [nextRecord, new] at read ⊢
  rw [read]

theorem nextRecord_new_magic (m : Magic) {header : List UInt8} (length : header.length = globalHeader)
    (magic : header.take 4 = m.bytes) (bytes : List UInt8) :
    (new ⟨header ++ bytes, none⟩).nextRecord = (behind m.layout bytes).nextRecord := by
  obtain ⟨linktype, parsed⟩ := parseGlobalHeader_magic m magic
  have read : (new ⟨header ++ bytes, none⟩).readGlobalHeader =
      (.ok m.layout, behind m.layout bytes) := by
    have exact_ := Reader.readExact_append header bytes none
    rw [length] at exact_
    simp only [readGlobalHeader, new, exact_, parsed]
    rfl
  rw [nextRecord_behind]
  simp only [nextRecord, new] at read ⊢
  rw [read]
  rfl

theorem nextRecord_new_save (m : Magic) (bytes : List UInt8) :
    (new ⟨saveHeader m ++ bytes, none⟩).nextRecord = (behind m.layout bytes).nextRecord := by
  have magic : (saveHeader m).take 4 = m.bytes := by
    cases m <;> rfl
  exact nextRecord_new_magic m (saveHeader_length m) magic bytes

theorem nextRecord_short {l : Layout} {bytes : List UInt8} (short : bytes.length < recordHeader) :
    (behind l bytes).nextRecord = (.ok none, behind l []) := by
  rw [nextRecord_behind, nextBehindHeader, Reader.readExact_short short]
  rfl

theorem words_of_four {α : Type*} {a b c d : List α} (la : a.length = 4) (lb : b.length = 4)
    (lc : c.length = 4) :
    ((a ++ b ++ c ++ d).drop 0).take 4 = a ∧ ((a ++ b ++ c ++ d).drop 4).take 4 = b ∧
      ((a ++ b ++ c ++ d).drop 8).take 4 = c := by
  simp [List.drop_append, List.take_append, la, lb, lc]

/-- Behind a whole header of a record its bytes are read, if there are as many. -/
theorem nextRecord_header (l : Layout) (r : SavedRecord) (rest : List UInt8) :
    (behind l (l.put r.tsSec.toNat ++ l.put r.tsFrac.toNat ++ l.put r.data.length ++
        l.put r.data.length ++ rest)).nextRecord =
      match Reader.readExact ⟨rest, none⟩ r.data.length with
      | (.error e, reader) => (.error e, ⟨reader, some l⟩)
      | (.ok data, reader) => (.ok (some ⟨(r.read l).tsUs, data⟩), ⟨reader, some l⟩) := by
  have bound := r.bound
  have length : r.data.length < 4294967296 := by
    simp only [maxInclLen] at bound
    omega
  obtain ⟨sec, frac, len⟩ := words_of_four (d := l.put r.data.length)
    (l.put_length r.tsSec.toNat) (l.put_length r.tsFrac.toNat) (l.put_length r.data.length)
  have exact_ := Reader.readExact_append (l.put r.tsSec.toNat ++ l.put r.tsFrac.toNat ++
    l.put r.data.length ++ l.put r.data.length) rest none
  have sixteen : (l.put r.tsSec.toNat ++ l.put r.tsFrac.toNat ++ l.put r.data.length ++
      l.put r.data.length).length = recordHeader := by
    simp [recordHeader]
  rw [sixteen] at exact_
  rw [nextRecord_behind, nextBehindHeader, exact_]
  rcases read : Reader.readExact ⟨rest, none⟩ r.data.length with ⟨outcome, reader⟩
  have small : ¬ maxInclLen < r.data.length := by omega
  cases outcome with
  | error e => simp only [len, l.u32_put length, if_neg small, read]
  | ok data =>
    simp only [sec, frac, len, l.u32_put r.tsSec.toNat_lt, l.u32_put r.tsFrac.toNat_lt,
      l.u32_put length, if_neg small, read, SavedRecord.read]

theorem nextRecord_whole (l : Layout) (r : SavedRecord) (rest : List UInt8) :
    (behind l (r.bytes l ++ rest)).nextRecord = (.ok (some (r.read l)), behind l rest) := by
  rw [SavedRecord.bytes, List.append_assoc, nextRecord_header, Reader.readExact_append]
  rfl

/-- A record cut off behind its header. -/
theorem nextRecord_cut {l : Layout} {r : SavedRecord} {n : Nat} (header : recordHeader ≤ n)
    (cut : n < r.size) :
    (behind l ((r.bytes l).take n)).nextRecord = (.error .eof, behind l []) := by
  have short : (r.data.take (n - recordHeader)).length < r.data.length := by
    rw [List.length_take]
    simp only [SavedRecord.size] at cut
    omega
  have split : (r.bytes l).take n = l.put r.tsSec.toNat ++ l.put r.tsFrac.toNat ++
      l.put r.data.length ++ l.put r.data.length ++ r.data.take (n - recordHeader) := by
    rw [SavedRecord.bytes, List.take_append, List.take_of_length_le]
    · simp [recordHeader]
    · simp only [List.length_append, Layout.put_length]
      simpa [recordHeader] using header
  rw [split, nextRecord_header, Reader.readExact_short short]
  rfl

theorem readAll_record {s s' : PcapStream} {record : Record}
    (next : s.nextRecord = (.ok (some record), s')) :
    s.readAll = (record :: s'.readAll.1, s'.readAll.2) := by
  rw [readAll]
  split
  next record' t eq =>
    rw [next] at eq
    cases eq
    rfl
  next t eq =>
    rw [next] at eq
    cases congrArg Prod.fst eq
  next e t eq =>
    rw [next] at eq
    cases congrArg Prod.fst eq

theorem readAll_end {s s' : PcapStream} (next : s.nextRecord = (.ok none, s')) :
    s.readAll = ([], none) := by
  rw [readAll]
  split
  next record' t eq =>
    rw [next] at eq
    cases congrArg Prod.fst eq
  next => rfl
  next e t eq =>
    rw [next] at eq
    cases congrArg Prod.fst eq

theorem readAll_error {s s' : PcapStream} {e : IoError} (next : s.nextRecord = (.error e, s')) :
    s.readAll = ([], some e) := by
  rw [readAll]
  split
  next record' t eq =>
    rw [next] at eq
    cases congrArg Prod.fst eq
  next t eq =>
    rw [next] at eq
    cases congrArg Prod.fst eq
  next e' t eq =>
    rw [next] at eq
    cases eq
    rfl

theorem readAll_congr {s t : PcapStream} (same : s.nextRecord = t.nextRecord) :
    s.readAll = t.readAll := by
  rcases next : t.nextRecord with ⟨e | _ | record, t'⟩
  · rw [readAll_error next, readAll_error (same.trans next)]
  · rw [readAll_end next, readAll_end (same.trans next)]
  · rw [readAll_record next, readAll_record (same.trans next)]

end PcapStream

def bodySize (records : List SavedRecord) : Nat := (records.map SavedRecord.size).sum

/-- Where the record numbered `j` starts in the file. -/
def offset (records : List SavedRecord) (j : Nat) : Nat := globalHeader + bodySize (records.take j)

@[simp] theorem bodySize_cons (r : SavedRecord) (records : List SavedRecord) :
    bodySize (r :: records) = r.size + bodySize records := by
  simp [bodySize]

theorem saveRecords_length (l : Layout) (records : List SavedRecord) :
    (saveRecords l records).length = bodySize records := by
  induction records with
  | nil => rfl
  | cons r records ih =>
    have split : saveRecords l (r :: records) = r.bytes l ++ saveRecords l records := rfl
    rw [split, List.length_append, r.bytes_length, ih, bodySize_cons]

theorem savefile_length (m : Magic) (records : List SavedRecord) :
    (savefile m records).length = offset records records.length := by
  rw [savefile, List.length_append, saveHeader_length, saveRecords_length, offset, List.take_length]

/-- What is read of the first `k` bytes of the records: those whole, and an error where a
record is cut behind its header. -/
theorem readAll_cut (l : Layout) {records : List SavedRecord} {j k : Nat}
    (inside : k ≤ bodySize records) (known : j ≤ records.length)
    (low : bodySize (records.take j) ≤ k)
    (high : j < records.length → k < bodySize (records.take (j + 1))) :
    (PcapStream.behind l ((saveRecords l records).take k)).readAll =
      ((records.take j).map (SavedRecord.read l),
        if k < bodySize (records.take j) + recordHeader then none else some .eof) := by
  induction records generalizing j k with
  | nil =>
    have zero : k = 0 := Nat.le_zero.mp inside
    subst zero
    have next : (PcapStream.behind l []).nextRecord = (.ok none, PcapStream.behind l []) :=
      PcapStream.nextRecord_short (by decide)
    have empty : (saveRecords l []).take 0 = [] := rfl
    rw [empty, PcapStream.readAll_end next, List.take_nil]
    rfl
  | cons r records ih =>
    have bytes : saveRecords l (r :: records) = r.bytes l ++ saveRecords l records := rfl
    cases j with
    | zero =>
      have cut : k < r.size := by
        have first := high (Nat.succ_pos _)
        simpa [bodySize] using first
      have part : (saveRecords l (r :: records)).take k = (r.bytes l).take k := by
        rw [bytes, List.take_append_of_le_length]
        rw [r.bytes_length]
        omega
      rw [part]
      by_cases short : k < recordHeader
      · have next : (PcapStream.behind l ((r.bytes l).take k)).nextRecord =
            (.ok none, PcapStream.behind l []) :=
          PcapStream.nextRecord_short (by rw [List.length_take]; omega)
        rw [PcapStream.readAll_end next]
        simp [bodySize, short]
      · have next := PcapStream.nextRecord_cut (l := l) (Nat.le_of_not_lt short) cut
        rw [PcapStream.readAll_error next]
        simp [bodySize, short]
    | succ j =>
      rw [List.take_succ_cons, bodySize_cons] at low
      rw [bodySize_cons] at inside
      have known' : j ≤ records.length := by simpa using known
      have high' : j < records.length → k - r.size < bodySize (records.take (j + 1)) := by
        intro more
        have next := high (by simpa using more)
        rw [List.take_succ_cons, bodySize_cons] at next
        omega
      have part : (saveRecords l (r :: records)).take k =
          r.bytes l ++ (saveRecords l records).take (k - r.size) := by
        rw [bytes, List.take_append, List.take_of_length_le, r.bytes_length]
        rw [r.bytes_length]
        omega
      have rest := ih (j := j) (k := k - r.size) (by omega) known' (by omega) high'
      have step := PcapStream.nextRecord_whole l r ((saveRecords l records).take (k - r.size))
      have edge : (k - r.size < bodySize (records.take j) + recordHeader) ↔
          k < r.size + bodySize (records.take j) + recordHeader := by
        omega
      rw [part, PcapStream.readAll_record step, rest, List.take_succ_cons, bodySize_cons]
      simp only [edge, List.map_cons]

/-- What the reader makes of the first `n` bytes of the file. -/
def readCut (m : Magic) (records : List SavedRecord) (n : Nat) : List Record × Option IoError :=
  (PcapStream.new ⟨(savefile m records).take n, none⟩).readAll

theorem readCut_early {m : Magic} {records : List SavedRecord} {n : Nat} (early : n < globalHeader) :
    readCut m records n = ([], some .eof) := by
  refine PcapStream.readAll_error (PcapStream.nextRecord_new_short ?_)
  rw [List.length_take]
  omega

theorem readCut_behind {m : Magic} {records : List SavedRecord} {n j : Nat}
    (inside : n ≤ (savefile m records).length) (known : j ≤ records.length)
    (low : offset records j ≤ n) (high : j < records.length → n < offset records (j + 1)) :
    readCut m records n = ((records.take j).map (SavedRecord.read m.layout),
      if n < offset records j + recordHeader then none else some .eof) := by
  rw [savefile_length] at inside
  simp only [offset] at inside low high ⊢
  rw [List.take_length] at inside
  have part : (savefile m records).take n =
      saveHeader m ++ (saveRecords m.layout records).take (n - globalHeader) := by
    rw [savefile, List.take_append, List.take_of_length_le, saveHeader_length]
    rw [saveHeader_length]
    omega
  have edge : n - globalHeader < bodySize (records.take j) + recordHeader ↔
      n < globalHeader + bodySize (records.take j) + recordHeader := by
    omega
  rw [readCut, part, PcapStream.readAll_congr (PcapStream.nextRecord_new_save m _),
    readAll_cut m.layout (by omega) known (by omega) (fun more => by have := high more; omega)]
  exact congrArg (Prod.mk _) (if_congr edge rfl rfl)

theorem SavedRecord.header_le_size (r : SavedRecord) : recordHeader ≤ r.size := Nat.le_add_right _ _

theorem offset_succ {records : List SavedRecord} {j : Nat} (more : j < records.length) :
    offset records j + recordHeader ≤ offset records (j + 1) := by
  have next : records.take (j + 1) = records.take j ++ [records[j]] := by
    rw [List.take_add_one, List.getElem?_eq_getElem more]
    rfl
  have header := (records[j]).header_le_size
  simp only [offset, next, bodySize, List.map_append, List.sum_append, List.map_cons, List.map_nil,
    List.sum_cons, List.sum_nil]
  omega

theorem offset_mono {records : List SavedRecord} {i j : Nat} (le : i ≤ j) :
    offset records i ≤ offset records j := by
  have front : records.take j = records.take i ++ (records.take j).drop i := by
    have split := (List.take_append_drop i (records.take j)).symm
    rwa [List.take_take, Nat.min_eq_left le] at split
  rw [offset, offset, front, bodySize, bodySize, List.map_append, List.sum_append]
  omega

/-- The record a position behind the global header falls into, or the end. -/
theorem exists_record (records : List SavedRecord) {n : Nat} (behind : globalHeader ≤ n) :
    ∃ j ≤ records.length, offset records j ≤ n ∧
      (j < records.length → n < offset records (j + 1)) := by
  have first : offset records 0 ≤ n := behind
  refine ⟨Nat.findGreatest (fun j => offset records j ≤ n) records.length,
    Nat.findGreatest_le _, Nat.findGreatest_spec (P := fun j => offset records j ≤ n)
      (Nat.zero_le _) first, ?_⟩
  intro more
  by_contra past
  have greatest := Nat.le_findGreatest (P := fun j => offset records j ≤ n) more
    (Nat.le_of_not_lt past)
  omega

inductive Bucket where
  | icmpEcho
  | arp
  | dhcp
  | other

structure OwnFrames where
  records : Nat
  earliestUs : Option Int
  latestUs : Option Int
  truncated : Bool
  inWindow : Nat
  icmpEcho : Nat
  firstEchoUs : Option Int
  lastEchoUs : Option Int
  arp : Nat
  dhcp : Nat
  other : Nat

namespace OwnFrames

def empty : OwnFrames := ⟨0, none, none, false, 0, 0, none, none, 0, 0, 0⟩

def earlier (tsUs : Int) (known : Option Int) : Option Int := some (known.elim tsUs (min · tsUs))

def latest (tsUs : Int) (known : Option Int) : Option Int := some (known.elim tsUs (max · tsUs))

def countBucket (out : OwnFrames) (tsUs : Int) : Option Bucket → OwnFrames
  | some .icmpEcho => { out with
      icmpEcho := out.icmpEcho + 1
      firstEchoUs := earlier tsUs out.firstEchoUs
      lastEchoUs := latest tsUs out.lastEchoUs }
  | some .arp => { out with arp := out.arp + 1 }
  | some .dhcp => { out with dhcp := out.dhcp + 1 }
  | some .other => { out with other := out.other + 1 }
  | none => out

/-- One record's share of the counts, `bucket` being that of its frame. -/
def tally (startUs endUs : Int) (out : OwnFrames) (record : Record) (bucket : Option Bucket) :
    OwnFrames :=
  let seen := { out with
    records := out.records + 1
    earliestUs := earlier record.tsUs out.earliestUs
    latestUs := latest record.tsUs out.latestUs }
  if record.tsUs < startUs ∨ endUs < record.tsUs then seen
  else countBucket { seen with inWindow := seen.inWindow + 1 } record.tsUs bucket

theorem tally_truncated (startUs endUs : Int) (out : OwnFrames) (record : Record)
    (bucket : Option Bucket) : (tally startUs endUs out record bucket).truncated = out.truncated := by
  unfold tally
  dsimp only
  split
  · rfl
  · rcases bucket with _ | _ | _ | _ | _ <;> rfl

end OwnFrames

/-- The loop over `next_record`: how the stream ends decides between counts, counts marked as
partial, and an error. `classify` puts a frame of the machine's own address into its bucket. -/
def countOwnFrames (classify : List UInt8 → MacAddr → Option Bucket) (s : PcapStream)
    (ownMac : MacAddr) (startUs endUs : Int) : Except IoError OwnFrames :=
  let (records, ending) := s.readAll
  let out := records.foldl (fun out record =>
    out.tally startUs endUs record (classify record.data ownMac)) .empty
  match ending with
  | none => .ok out
  | some e => if e.kind = .unexpectedEof then .ok { out with truncated := true } else .error e

theorem countOwnFrames_end (classify : List UInt8 → MacAddr → Option Bucket) {s : PcapStream}
    (ownMac : MacAddr) (startUs endUs : Int) (ending : s.readAll.2 = none ∨ s.readAll.2 = some .eof) :
    ∃ counts, countOwnFrames classify s ownMac startUs endUs = .ok counts ∧
      (counts.truncated = true ↔ s.readAll.2 = some .eof) := by
  have untouched (records : List Record) (out : OwnFrames) :
      (records.foldl (fun out record =>
        out.tally startUs endUs record (classify record.data ownMac)) out).truncated =
        out.truncated := by
    induction records generalizing out with
    | nil => rfl
    | cons record records ih => rw [List.foldl_cons, ih, OwnFrames.tally_truncated]
  rcases ending with whole | cut
  · simp only [countOwnFrames, whole]
    refine ⟨_, rfl, ?_⟩
    rw [untouched]
    simp [OwnFrames.empty]
  · simp only [countOwnFrames, cut]
    exact ⟨_, rfl, by simp⟩

/-- A cut of the file is noticed: the records before it are read, then its end is told from a
record cut short, and the counts over it say whether they are partial. -/
structure CutNoticed (m : Magic) (records : List SavedRecord)
    (classify : List UInt8 → MacAddr → Option Bucket) (ownMac : MacAddr) (startUs endUs : Int)
    (n : Nat) : Prop where
  early : n < globalHeader → (readCut m records n).1 = [] ∧
    (readCut m records n).2.map IoError.kind = some .unexpectedEof
  reads : ∀ j ≤ records.length, offset records j ≤ n →
    (j < records.length → n < offset records (j + 1)) →
    (readCut m records n).1 = (records.take j).map (SavedRecord.read m.layout) ∧
      (readCut m records n).2.map IoError.kind =
        if n = offset records j then none else some .unexpectedEof
  truncated : ∃ counts, countOwnFrames classify
      (.new ⟨(savefile m records).take n, none⟩) ownMac startUs endUs = .ok counts ∧
    (counts.truncated = true ↔ ¬ ∃ j ≤ records.length, n = offset records j)

/-- A cut behind the first byte of a record's header and before its last. -/
def InRecordHeader (records : List SavedRecord) (n : Nat) : Prop :=
  ∃ j < records.length, offset records j < n ∧ n < offset records j + recordHeader

/-- A cut inside the header of a record passes for the end of the file. -/
theorem not_cutNoticed {m : Magic} {records : List SavedRecord}
    {classify : List UInt8 → MacAddr → Option Bucket} {ownMac : MacAddr} {startUs endUs : Int}
    {n : Nat} (inside : n ≤ (savefile m records).length) (header : InRecordHeader records n) :
    ¬ CutNoticed m records classify ownMac startUs endUs n := by
  obtain ⟨j, more, past, before⟩ := header
  have next := offset_succ more
  have high : j < records.length → n < offset records (j + 1) := fun _ => by omega
  have read := readCut_behind (m := m) inside (Nat.le_of_lt more) (Nat.le_of_lt past) high
  intro noticed
  have ending := (noticed.reads j (Nat.le_of_lt more) (Nat.le_of_lt past) high).2
  rw [read, if_pos before, if_neg (by omega)] at ending
  cases ending

/-- A cut away from the headers is told by the way the stream ends: on a boundary it is clean. -/
theorem readCut_ending {m : Magic} {records : List SavedRecord} {n j : Nat}
    (inside : n ≤ (savefile m records).length) (header : ¬ InRecordHeader records n)
    (known : j ≤ records.length) (low : offset records j ≤ n)
    (high : j < records.length → n < offset records (j + 1)) :
    readCut m records n = ((records.take j).map (SavedRecord.read m.layout),
      if n = offset records j then none else some .eof) := by
  have last := savefile_length m records
  have read := readCut_behind (m := m) inside known low high
  by_cases boundary : n = offset records j
  · rw [if_pos boundary]
    rwa [if_pos (by rw [boundary]; exact Nat.lt_add_of_pos_right (by decide))] at read
  · rw [if_neg boundary]
    rwa [if_neg] at read
    intro short
    rcases Nat.lt_or_eq_of_le known with more | whole
    · exact header ⟨j, more, by omega, short⟩
    · subst whole
      omega

/-- The one boundary a position can be on is that of the record it falls into. -/
theorem onBoundary_iff {records : List SavedRecord} {n j : Nat} (known : j ≤ records.length)
    (low : offset records j ≤ n) (high : j < records.length → n < offset records (j + 1)) :
    (∃ i ≤ records.length, n = offset records i) ↔ n = offset records j := by
  constructor
  · rintro ⟨i, listed, eq⟩
    rcases Nat.lt_trichotomy i j with less | same | more
    · have step : offset records i + recordHeader ≤ offset records (i + 1) :=
        offset_succ (by omega)
      have mono : offset records (i + 1) ≤ offset records j := offset_mono less
      have room : 0 < recordHeader := by decide
      omega
    · rw [eq, same]
    · have mono : offset records (j + 1) ≤ offset records i := offset_mono more
      have next := high (by omega)
      omega
  · intro boundary
    exact ⟨j, known, boundary⟩

theorem not_onBoundary_early {records : List SavedRecord} {n : Nat} (early : n < globalHeader) :
    ¬ ∃ j ≤ records.length, n = offset records j := by
  rintro ⟨j, _, eq⟩
  have first : offset records 0 ≤ offset records j := offset_mono (Nat.zero_le j)
  change globalHeader + 0 ≤ _ at first
  omega

theorem cutNoticed_of_not_header {m : Magic} {records : List SavedRecord}
    {classify : List UInt8 → MacAddr → Option Bucket} {ownMac : MacAddr} {startUs endUs : Int}
    {n : Nat} (inside : n ≤ (savefile m records).length) (header : ¬ InRecordHeader records n) :
    CutNoticed m records classify ownMac startUs endUs n := by
  have counted (ended : (readCut m records n).2 = none ∨ (readCut m records n).2 = some .eof) :=
    countOwnFrames_end classify
      (s := .new ⟨(savefile m records).take n, none⟩) ownMac startUs endUs ended
  refine ⟨?_, ?_, ?_⟩
  · intro early
    rw [readCut_early early]
    exact ⟨rfl, rfl⟩
  · intro j known low high
    rw [readCut_ending inside header known low high]
    refine ⟨rfl, ?_⟩
    split <;> rfl
  · rcases Nat.lt_or_ge n globalHeader with early | behind
    · have read : readCut m records n = ([], some .eof) := readCut_early early
      obtain ⟨counts, ok, truncated⟩ := counted (.inr (by rw [read]))
      refine ⟨counts, ok, truncated.trans ?_⟩
      change (readCut m records n).2 = some .eof ↔ _
      rw [read]
      simp only [true_iff]
      exact not_onBoundary_early early
    · obtain ⟨j, known, low, high⟩ := exists_record records behind
      have read := readCut_ending inside header known low high
      obtain ⟨counts, ok, truncated⟩ := counted (by rw [read]; split <;> simp)
      refine ⟨counts, ok, truncated.trans ?_⟩
      change (readCut m records n).2 = some .eof ↔ _
      rw [read, onBoundary_iff known low high]
      by_cases boundary : n = offset records j
      · simp [boundary]
      · simp [boundary]

/-- A saved file is read back record by record; of its prefixes exactly those that end inside
the header of a record go unnoticed. -/
theorem savefile_cuts (m : Magic) (records : List SavedRecord)
    (classify : List UInt8 → MacAddr → Option Bucket) (ownMac : MacAddr) (startUs endUs : Int) :
    (PcapStream.new ⟨savefile m records, none⟩).readAll =
        (records.map (SavedRecord.read m.layout), none) ∧
      ∀ n ≤ (savefile m records).length,
        (CutNoticed m records classify ownMac startUs endUs n ↔ ¬ InRecordHeader records n) := by
  refine ⟨?_, ?_⟩
  · have length := savefile_length m records
    have read := readCut_behind (m := m) (j := records.length) (Nat.le_refl _) (Nat.le_refl _)
      (Nat.le_of_eq length.symm) (fun more => absurd more (Nat.lt_irrefl _))
    rw [if_pos (by rw [length]; exact Nat.lt_add_of_pos_right (by decide)), List.take_length] at read
    rwa [readCut, List.take_length] at read
  · intro n inside
    constructor
    · intro noticed header
      exact not_cutNoticed inside header noticed
    · exact cutNoticed_of_not_header inside

def threeBytes : SavedRecord := ⟨9, 0, [1, 2, 3], by decide⟩

theorem savefile_cuts_threeBytes :
    CutNoticed .leMicros [threeBytes] (fun _ _ => none) (Vector.replicate 6 0) 0 0 42 ↔
      ¬ InRecordHeader [threeBytes] 42 :=
  (savefile_cuts .leMicros [threeBytes] (fun _ _ => none) (Vector.replicate 6 0) 0 0).2 42
    (by rw [savefile_length]; decide)

/-- Eight bytes of a record's header are taken for a clean end. -/
theorem cut_in_header_unnoticed :
    32 ≤ (savefile .leMicros [threeBytes]).length ∧
      ¬ CutNoticed .leMicros [threeBytes] (fun _ _ => none) (Vector.replicate 6 0) 0 0 32 := by
  have inside : 32 ≤ (savefile .leMicros [threeBytes]).length := by
    rw [savefile_length]
    decide
  exact ⟨inside, not_cutNoticed inside ⟨0, by decide, by decide, by decide⟩⟩

end NetObserver
