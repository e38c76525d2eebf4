import Mathlib.Data.List.TakeWhile
import NetObserver.PcapCuts

/-! The parser of a savefile in memory, against the streaming reader of the same bytes. -/

namespace NetObserver

open ByteOrder

/-- The loop over the records of a savefile, from `off` on. -/
def parseFrames (swapped : Bool) (bytes : List UInt8) (off : Nat) : List (List UInt8) :=
  if off + recordHeader ≤ bytes.length then
    let u32At (b : List UInt8) : Nat := if swapped then leNat b else beNat b
    let inclLen := u32At ((bytes.drop (off + 8)).take 4)
    let start := off + recordHeader
    -- A sum that overflows a machine's size is past the bytes as well.
    let stop := start + inclLen
    if bytes.length < stop then []
    else (bytes.take stop).drop start :: parseFrames swapped bytes stop
  else []
termination_by bytes.length - off
decreasing_by
  unfold recordHeader at *
  omega

def parsePcapRecords (bytes : List UInt8) : List (List UInt8) :=
  if bytes.length < globalHeader then []
  else
    match bytes.take 4 with
    | [0xa1, 0xb2, 0xc3, 0xd4] => parseFrames false bytes globalHeader
    | [0xd4, 0xc3, 0xb2, 0xa1] => parseFrames true bytes globalHeader
    | _ => []

/-- A record as its bytes stand: a header that claims as many bytes as follow. -/
structure RawRecord (l : Layout) where
  header : List UInt8
  data : List UInt8
  header_length : header.length = recordHeader
  claims : l.u32 ((header.drop 8).take 4) = data.length

def RawRecord.bytes {l : Layout} (r : RawRecord l) : List UInt8 := r.header ++ r.data

/-- What no record begins: too few bytes for a header, or a header that claims more than follow. -/
def Stops (l : Layout) (tail : List UInt8) : Prop :=
  tail.length < recordHeader + l.u32 ((tail.drop 8).take 4)

section

variable {l : Layout} {bytes rest tail : List UInt8} {off : Nat}

theorem RawRecord.length_bytes (r : RawRecord l) :
    r.bytes.length = recordHeader + r.data.length := by
  rw [RawRecord.bytes, List.length_append, r.header_length]

theorem RawRecord.claimed (r : RawRecord l) (rest : List UInt8) :
    l.u32 (((r.bytes ++ rest).drop 8).take 4) = r.data.length := by
  have length := r.header_length
  unfold recordHeader at length
  have word : ((r.bytes ++ rest).drop 8).take 4 = (r.header.drop 8).take 4 := by
    rw [RawRecord.bytes, List.append_assoc, List.drop_append_of_le_length (by omega),
      List.take_append_of_le_length (by rw [List.length_drop]; omega)]
  rw [word, r.claims]

theorem claimed_drop (l : Layout) (bytes : List UInt8) (off : Nat) :
    (if l.littleEndian then leNat ((bytes.drop (off + 8)).take 4)
      else beNat ((bytes.drop (off + 8)).take 4)) = l.u32 (((bytes.drop off).drop 8).take 4) := by
  rw [List.drop_drop]
  rfl

/-- A record at the loop's place is kept, and the loop goes on behind it. -/
theorem parseFrames_record (r : RawRecord l) (here : bytes.drop off = r.bytes ++ rest) :
    parseFrames l.littleEndian bytes off =
      r.data :: parseFrames l.littleEndian bytes (off + r.bytes.length) := by
  have length := congrArg List.length here
  rw [List.length_drop, List.length_append, r.length_bytes] at length
  have header : off + recordHeader ≤ bytes.length := by
    unfold recordHeader at length ⊢
    omega
  have whole : ¬ bytes.length < off + recordHeader + r.data.length := by
    unfold recordHeader at length ⊢
    omega
  have data : (bytes.take (off + recordHeader + r.data.length)).drop (off + recordHeader) =
      r.data := by
    rw [List.drop_take, Nat.add_sub_cancel_left, ← List.drop_drop, here, RawRecord.bytes,
      List.append_assoc, List.drop_left' r.header_length, List.take_left]
  have claimed := claimed_drop l bytes off
  rw [here, r.claimed] at claimed
  rw [parseFrames, if_pos header]
  simp only [claimed]
  rw [if_neg whole, data, r.length_bytes, Nat.add_assoc]

theorem parseFrames_stops (stops : Stops l tail) (here : bytes.drop off = tail) :
    parseFrames l.littleEndian bytes off = [] := by
  have length := congrArg List.length here
  rw [List.length_drop] at length
  rw [parseFrames]
  split
  next header =>
    have claimed := claimed_drop l bytes off
    rw [here] at claimed
    simp only [claimed]
    apply if_pos
    unfold Stops at stops
    omega
  next => rfl

theorem parseFrames_records (records : List (RawRecord l)) (stops : Stops l tail)
    (here : bytes.drop off = records.flatMap RawRecord.bytes ++ tail) :
    parseFrames l.littleEndian bytes off = records.map RawRecord.data := by
  induction records generalizing off with
  | nil => exact parseFrames_stops stops here
  | cons r records ih =>
    rw [List.flatMap_cons, List.append_assoc] at here
    have behind : bytes.drop (off + r.bytes.length) = records.flatMap RawRecord.bytes ++ tail := by
      rw [← List.drop_drop, here, List.drop_left]
    rw [parseFrames_record r here, ih behind, List.map_cons]

/-- Any bytes are whole records with what begins none behind them. -/
theorem exists_rawRecords (l : Layout) (bytes : List UInt8) :
    ∃ (records : List (RawRecord l)) (tail : List UInt8),
      bytes = records.flatMap RawRecord.bytes ++ tail ∧ Stops l tail := by
  induction length : bytes.length using Nat.strongRecOn generalizing bytes with
  | ind n ih =>
    by_cases stops : Stops l bytes
    · exact ⟨[], bytes, rfl, stops⟩
    unfold Stops at stops
    let claim := l.u32 ((bytes.drop 8).take 4)
    have room : recordHeader + claim ≤ bytes.length := Nat.not_lt.mp stops
    have header : (bytes.take recordHeader).length = recordHeader :=
      List.length_take_of_le (by omega)
    have word : ((bytes.take recordHeader).drop 8).take 4 = (bytes.drop 8).take 4 := by
      rw [List.drop_take, List.take_take]
      rfl
    let r : RawRecord l := {
      header := bytes.take recordHeader
      data := (bytes.drop recordHeader).take claim
      header_length := header
      claims := by
        rw [word, List.length_take, List.length_drop]
        omega }
    obtain ⟨records, tail, split, ends⟩ := ih (bytes.drop (recordHeader + claim)).length
      (by rw [List.length_drop]; unfold recordHeader at *; omega) _ rfl
    refine ⟨r :: records, tail, ?_, ends⟩
    rw [List.flatMap_cons, List.append_assoc, ← split, RawRecord.bytes, List.append_assoc,
      ← List.drop_drop, List.take_append_drop, List.take_append_drop]

/-- The header of a record is read as it stands, and the word in it is what it claims. -/
theorem readExact_header (r : RawRecord l) (rest : List UInt8) :
    Reader.readExact ⟨r.bytes ++ rest, none⟩ recordHeader = (.ok r.header, ⟨r.data ++ rest, none⟩) := by
  have read := Reader.readExact_append r.header (r.data ++ rest) none
  rwa [r.header_length, ← List.append_assoc] at read

theorem nextRecord_raw (r : RawRecord l) (small : r.data.length ≤ maxInclLen)
    (rest : List UInt8) : ∃ record : Record, record.data = r.data ∧
      (PcapStream.behind l (r.bytes ++ rest)).nextRecord =
        (.ok (some record), PcapStream.behind l rest) := by
  have data := Reader.readExact_append r.data rest none
  rw [PcapStream.nextRecord_behind, PcapStream.nextBehindHeader, readExact_header r rest]
  simp only [r.claims]
  rw [if_neg (Nat.not_lt.mpr small), data]
  exact ⟨_, rfl, rfl⟩

theorem readAll_overlong (r : RawRecord l) (long : ¬ r.data.length ≤ maxInclLen)
    (rest : List UInt8) : (PcapStream.behind l (r.bytes ++ rest)).readAll.1 = [] := by
  have next : ∃ e s, (PcapStream.behind l (r.bytes ++ rest)).nextRecord = (.error e, s) := by
    rw [PcapStream.nextRecord_behind, PcapStream.nextBehindHeader, readExact_header r rest]
    simp only [r.claims]
    rw [if_pos (Nat.lt_of_not_le long)]
    exact ⟨_, _, rfl⟩
  obtain ⟨e, s, failed⟩ := next
  rw [PcapStream.readAll_error failed]

theorem readAll_stops (stops : Stops l tail) : (PcapStream.behind l tail).readAll.1 = [] := by
  by_cases short : tail.length < recordHeader
  · rw [PcapStream.readAll_end (PcapStream.nextRecord_short short)]
  have next : ∃ e s, (PcapStream.behind l tail).nextRecord = (.error e, s) := by
    have header : Reader.readExact ⟨tail, none⟩ recordHeader =
        (.ok (tail.take recordHeader), ⟨tail.drop recordHeader, none⟩) :=
      if_pos (Nat.not_lt.mp short)
    have word : ((tail.take recordHeader).drop 8).take 4 = (tail.drop 8).take 4 := by
      rw [List.drop_take, List.take_take]
      rfl
    rw [PcapStream.nextRecord_behind, PcapStream.nextBehindHeader, header]
    simp only [word]
    split
    next => exact ⟨_, _, rfl⟩
    next =>
      have few : (tail.drop recordHeader).length < l.u32 ((tail.drop 8).take 4) := by
        unfold Stops at stops
        rw [List.length_drop]
        omega
      rw [Reader.readExact_short few]
      exact ⟨_, _, rfl⟩
  obtain ⟨e, s, failed⟩ := next
  rw [PcapStream.readAll_error failed]

/-- The stream gives the records in front of the first that claims too much. -/
theorem readAll_records (records : List (RawRecord l)) (stops : Stops l tail) :
    (PcapStream.behind l (records.flatMap RawRecord.bytes ++ tail)).readAll.1.map Record.data =
      (records.takeWhile fun r => r.data.length ≤ maxInclLen).map RawRecord.data := by
  induction records with
  | nil =>
    rw [List.flatMap_nil, List.nil_append, readAll_stops stops]
    rfl
  | cons r records ih =>
    rw [List.flatMap_cons, List.append_assoc, List.takeWhile_cons]
    by_cases small : r.data.length ≤ maxInclLen
    · obtain ⟨record, data, next⟩ := nextRecord_raw r small (records.flatMap RawRecord.bytes ++ tail)
      rw [PcapStream.readAll_record next, List.map_cons, ih, data, if_pos (decide_eq_true small),
        List.map_cons]
    · rw [readAll_overlong r small, if_neg (by simpa using small)]
      rfl

theorem RawRecord.bytes_inj {r r' : RawRecord l} {rest rest' : List UInt8}
    (same : r.bytes ++ rest = r'.bytes ++ rest') : r = r' ∧ rest = rest' := by
  have claimed := r.claimed rest
  rw [same, r'.claimed rest'] at claimed
  have lengths : r.bytes.length = r'.bytes.length := by
    rw [r.length_bytes, r'.length_bytes, claimed]
  obtain ⟨bytes, rests⟩ := List.append_inj same lengths
  obtain ⟨header, data⟩ := List.append_inj bytes (r.header_length.trans r'.header_length.symm)
  cases r
  cases r'
  cases header
  cases data
  exact ⟨rfl, rests⟩

theorem Stops.ne_record (stops : Stops l tail) (r : RawRecord l) : tail ≠ r.bytes ++ rest := by
  rintro rfl
  unfold Stops at stops
  rw [r.claimed, List.length_append, r.length_bytes] at stops
  omega

/-- Whole records at the front of some bytes are the first of all that stand there. -/
theorem rawRecords_initial {records all : List (RawRecord l)} (stops : Stops l tail)
    (same : records.flatMap RawRecord.bytes ++ rest = all.flatMap RawRecord.bytes ++ tail) :
    records <+: all := by
  induction records generalizing all with
  | nil => exact List.nil_prefix
  | cons r records ih =>
    rw [List.flatMap_cons, List.append_assoc] at same
    cases all with
    | nil => exact absurd same.symm (stops.ne_record r)
    | cons r' all =>
      rw [List.flatMap_cons, List.append_assoc] at same
      obtain ⟨rfl, behind⟩ := RawRecord.bytes_inj same
      exact List.cons_prefix_cons.mpr ⟨rfl, ih behind⟩

/-- No header of a record that stands whole in the bytes claims more than a capture can hold. -/
def Bounded (l : Layout) (bytes : List UInt8) : Prop :=
  ∀ (records : List (RawRecord l)) (rest : List UInt8),
    bytes = records.flatMap RawRecord.bytes ++ rest → ∀ r ∈ records, r.data.length ≤ maxInclLen

theorem bounded_iff {records : List (RawRecord l)} (stops : Stops l tail)
    (split : bytes = records.flatMap RawRecord.bytes ++ tail) :
    Bounded l bytes ↔ ∀ r ∈ records, r.data.length ≤ maxInclLen := by
  constructor
  · intro bounded
    exact bounded records tail split
  · intro small front rest here r mem
    have first := rawRecords_initial stops (here.symm.trans split)
    exact small r (first.subset mem)

theorem Bounded.take (bounded : Bounded l bytes) (n : Nat) : Bounded l (bytes.take n) := by
  intro records rest split
  refine bounded records (rest ++ bytes.drop n) ?_
  rw [← List.append_assoc, ← split, List.take_append_drop]

end

section

variable {m : Magic} {bytes : List UInt8}

theorem readAll_new (header : globalHeader ≤ bytes.length) (magic : bytes.take 4 = m.bytes) :
    (PcapStream.new ⟨bytes, none⟩).readAll =
      (PcapStream.behind m.layout (bytes.drop globalHeader)).readAll := by
  have length : (bytes.take globalHeader).length = globalHeader := List.length_take_of_le header
  have first : (bytes.take globalHeader).take 4 = m.bytes := by
    rw [List.take_take]
    exact magic
  have next := PcapStream.nextRecord_new_magic m length first (bytes.drop globalHeader)
  rw [List.take_append_drop] at next
  exact PcapStream.readAll_congr next

theorem parsePcapRecords_magic (micros : m.layout.nanos = false)
    (header : globalHeader ≤ bytes.length) (magic : bytes.take 4 = m.bytes) :
    parsePcapRecords bytes = parseFrames m.layout.littleEndian bytes globalHeader := by
  rw [parsePcapRecords, if_neg (Nat.not_lt.mpr header), magic]
  cases m with
  | beMicros => rfl
  | leMicros => rfl
  | beNanos => cases micros
  | leNanos => cases micros

/-- The two readers of one file, over the records that stand whole in it. -/
theorem readers_records (micros : m.layout.nanos = false) (header : globalHeader ≤ bytes.length)
    (magic : bytes.take 4 = m.bytes) {records : List (RawRecord m.layout)} {tail : List UInt8}
    (stops : Stops m.layout tail)
    (split : bytes.drop globalHeader = records.flatMap RawRecord.bytes ++ tail) :
    parsePcapRecords bytes = records.map RawRecord.data ∧
      (PcapStream.new ⟨bytes, none⟩).readAll.1.map Record.data =
        (records.takeWhile fun r => r.data.length ≤ maxInclLen).map RawRecord.data := by
  constructor
  · rw [parsePcapRecords_magic micros header magic, parseFrames_records records stops split]
  · rw [readAll_new header magic, split, readAll_records records stops]

theorem readers_agree_iff (micros : m.layout.nanos = false) (header : globalHeader ≤ bytes.length)
    (magic : bytes.take 4 = m.bytes) :
    parsePcapRecords bytes = (PcapStream.new ⟨bytes, none⟩).readAll.1.map Record.data ↔
      Bounded m.layout (bytes.drop globalHeader) := by
  obtain ⟨records, tail, split, stops⟩ := exists_rawRecords m.layout (bytes.drop globalHeader)
  obtain ⟨parsed, streamed⟩ := readers_records micros header magic stops split
  rw [parsed, streamed, bounded_iff stops split]
  constructor
  · intro same r mem
    have lengths := congrArg List.length same
    rw [List.length_map, List.length_map] at lengths
    have all := (List.takeWhile_prefix _).eq_of_length lengths.symm
    exact of_decide_eq_true (List.takeWhile_eq_self_iff.mp all r mem)
  · intro small
    rw [List.takeWhile_eq_self_iff.mpr fun r mem => decide_eq_true (small r mem)]

end

/-- The readers give the same frames exactly where no whole record claims too much. Of a file cut
anywhere behind its header each gives the frames of the whole file's front, and every record that
is whole in the cut is among them. -/
theorem savefile_readers_agree (m : Magic) (micros : m.layout.nanos = false) (bytes : List UInt8)
    (header : globalHeader ≤ bytes.length) (magic : bytes.take 4 = m.bytes) :
    (parsePcapRecords bytes = (PcapStream.new ⟨bytes, none⟩).readAll.1.map Record.data ↔
      Bounded m.layout (bytes.drop globalHeader)) ∧
    (Bounded m.layout (bytes.drop globalHeader) → ∀ n, globalHeader ≤ n → ∃ kept,
      parsePcapRecords (bytes.take n) = (parsePcapRecords bytes).take kept ∧
      (PcapStream.new ⟨bytes.take n, none⟩).readAll.1.map Record.data =
        (parsePcapRecords bytes).take kept ∧
      ∀ (records : List (RawRecord m.layout)) (rest : List UInt8),
        (bytes.take n).drop globalHeader = records.flatMap RawRecord.bytes ++ rest →
          records.length ≤ kept) := by
  refine ⟨readers_agree_iff micros header magic, ?_⟩
  intro bounded n behind
  obtain ⟨all, tail, split, stops⟩ := exists_rawRecords m.layout (bytes.drop globalHeader)
  obtain ⟨front, part, cut, ends⟩ := exists_rawRecords m.layout ((bytes.take n).drop globalHeader)
  have header' : globalHeader ≤ (bytes.take n).length := by
    rw [List.length_take]
    omega
  have magic' : (bytes.take n).take 4 = m.bytes := by
    unfold globalHeader at behind
    rw [List.take_take, Nat.min_eq_left (by omega), magic]
  have bounded' : Bounded m.layout ((bytes.take n).drop globalHeader) := by
    rw [List.drop_take]
    exact bounded.take _
  have parsed := (readers_records micros header magic stops split).1
  have parsed' := (readers_records micros header' magic' ends cut).1
  have first : front <+: all := by
    have whole : front.flatMap RawRecord.bytes ++ (part ++ (bytes.drop globalHeader).drop
        (n - globalHeader)) = bytes.drop globalHeader := by
      rw [← List.append_assoc, ← cut, List.drop_take, List.take_append_drop]
    exact rawRecords_initial stops (whole.trans split)
  have kept : parsePcapRecords (bytes.take n) = (parsePcapRecords bytes).take front.length := by
    rw [parsed', parsed, ← List.map_take, ← List.prefix_iff_eq_take.mp first]
  refine ⟨front.length, kept, ?_, ?_⟩
  · rw [← kept, ((readers_agree_iff micros header' magic').mpr bounded')]
  · intro records rest here
    exact (rawRecords_initial ends (here.symm.trans cut)).length_le

theorem savefile_readers_agree_threeBytes :
    parsePcapRecords (savefile .leMicros [threeBytes]) =
        (PcapStream.new ⟨savefile .leMicros [threeBytes], none⟩).readAll.1.map Record.data ↔
      Bounded (Magic.layout .leMicros) ((savefile .leMicros [threeBytes]).drop globalHeader) := by
  have header : globalHeader ≤ (savefile .leMicros [threeBytes]).length := by
    rw [savefile_length]
    decide
  exact (savefile_readers_agree .leMicros rfl _ header rfl).1

end NetObserver
