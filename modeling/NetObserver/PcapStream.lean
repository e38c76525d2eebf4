import NetObserver.ByteOrder
import NetObserver.Mac

/-! A streaming reader of the classic pcap savefile. -/

namespace NetObserver

open ByteOrder

inductive IoErrorKind where
  | unexpectedEof
  | invalidData
  | brokenPipe
  | other
deriving DecidableEq

structure IoError where
  kind : IoErrorKind
  message : String

def IoError.eof : IoError := ⟨.unexpectedEof, "failed to fill whole buffer"⟩

/-- A blocking reader: the bytes it still delivers and, where it does not just end, what it
fails with behind them. -/
structure Reader where
  bytes : List UInt8
  fault : Option IoError

def Reader.readExact (r : Reader) (n : Nat) : Except IoError (List UInt8) × Reader :=
  if n ≤ r.bytes.length then (.ok (r.bytes.take n), { r with bytes := r.bytes.drop n })
  else (.error (r.fault.getD .eof), { r with bytes := [] })

def globalHeader : Nat := 24

def recordHeader : Nat := 16

def maxInclLen : Nat := 1048576

structure Record where
  tsUs : Int
  data : List UInt8
deriving DecidableEq

structure Layout where
  littleEndian : Bool
  nanos : Bool
deriving DecidableEq

def Layout.u32 (l : Layout) (b : List UInt8) : Nat := if l.littleEndian then leNat b else beNat b

structure PcapStream where
  reader : Reader
  layout : Option Layout

/-- The layout the magic selects, and the link type. -/
def parseGlobalHeader (header : List UInt8) : Except IoError (Layout × Nat) := do
  let layout ← match header.take 4 with
    | [0xa1, 0xb2, 0xc3, 0xd4] => .ok ⟨false, false⟩
    | [0xd4, 0xc3, 0xb2, 0xa1] => .ok ⟨true, false⟩
    | [0xa1, 0xb2, 0x3c, 0x4d] => .ok ⟨false, true⟩
    | [0x4d, 0x3c, 0xb2, 0xa1] => .ok ⟨true, true⟩
    | other => .error ⟨.invalidData, "not a classic pcap stream (magic [" ++
        ", ".intercalate (other.map fun b => hexPair b.toNat) ++ "])"⟩
  .ok (layout, layout.u32 ((header.drop 20).take 4))

namespace PcapStream

def new (reader : Reader) : PcapStream := ⟨reader, none⟩

def readGlobalHeader (s : PcapStream) : Except IoError Layout × PcapStream :=
  match s.reader.readExact globalHeader with
  | (.error e, reader) => (.error e, { s with reader := reader })
  | (.ok header, reader) =>
    match parseGlobalHeader header with
    | .error e => (.error e, { s with reader := reader })
    | .ok (layout, _) => (.ok layout, ⟨reader, some layout⟩)

/-- The next record behind a known global header; the end of the stream where a header of a
record should stand is the clean end. -/
def nextBehindHeader (reader : Reader) (layout : Layout) :
    Except IoError (Option Record) × PcapStream :=
  match reader.readExact recordHeader with
  | (.error e, reader) =>
    (if e.kind = .unexpectedEof then .ok none else .error e, ⟨reader, some layout⟩)
  | (.ok header, reader) =>
    let word (at_ : Nat) : Nat := layout.u32 ((header.drop at_).take 4)
    let inclLen := word 8
    if maxInclLen < inclLen then
      (.error ⟨.invalidData, "pcap record claims " ++ inclLen.repr ++
        " bytes, more than a capture can hold"⟩, ⟨reader, some layout⟩)
    else
      match reader.readExact inclLen with
      | (.error e, reader) => (.error e, ⟨reader, some layout⟩)
      | (.ok data, reader) =>
        let tsUs : Int := word 0 * 1000000 + (if layout.nanos then word 4 / 1000 else word 4 : Nat)
        (.ok (some ⟨tsUs, data⟩), ⟨reader, some layout⟩)

def nextRecord (s : PcapStream) : Except IoError (Option Record) × PcapStream :=
  match s.layout with
  | some layout => nextBehindHeader s.reader layout
  | none =>
    match s.readGlobalHeader with
    | (.error e, s) => (.error e, s)
    | (.ok layout, s) => nextBehindHeader s.reader layout

end PcapStream

theorem Reader.readExact_ok {r r' : Reader} {n : Nat} {bytes : List UInt8}
    (read : r.readExact n = (.ok bytes, r')) :
    r'.bytes.length + n = r.bytes.length ∧ r'.fault = r.fault := by
  unfold readExact at read
  split at read
  next enough =>
    cases read
    simp only [List.length_drop, and_true]
    omega
  next => cases congrArg Prod.fst read

namespace PcapStream

theorem nextBehindHeader_shrinks {reader : Reader} {layout : Layout} {record : Record}
    {s : PcapStream} (next : nextBehindHeader reader layout = (.ok (some record), s)) :
    s.reader.bytes.length < reader.bytes.length := by
  unfold nextBehindHeader at next
  split at next
  next e reader' failed =>
    split at next <;> cases congrArg Prod.fst next
  next header reader' read =>
    have first := (Reader.readExact_ok read).1
    simp only [recordHeader] at first
    dsimp only at next
    split at next
    next => cases congrArg Prod.fst next
    next =>
      split at next
      next => cases congrArg Prod.fst next
      next data reader'' read' =>
        have second := (Reader.readExact_ok read').1
        have same : s = ⟨reader'', some layout⟩ := (congrArg Prod.snd next).symm
        rw [same]
        change reader''.bytes.length < _
        omega

theorem nextRecord_shrinks {s s' : PcapStream} {record : Record}
    (next : s.nextRecord = (.ok (some record), s')) :
    s'.reader.bytes.length < s.reader.bytes.length := by
  unfold nextRecord at next
  split at next
  next => exact nextBehindHeader_shrinks next
  next =>
    split at next
    next => cases congrArg Prod.fst next
    next layout t header =>
      have behind := nextBehindHeader_shrinks next
      unfold readGlobalHeader at header
      split at header
      next => cases congrArg Prod.fst header
      next bytes reader read =>
        have first := (Reader.readExact_ok read).1
        split at header
        next => cases congrArg Prod.fst header
        next =>
          cases header
          change _ < reader.bytes.length at behind
          omega

/-- Every record the stream still gives, and the error it ends with if it does not end cleanly. -/
def readAll (s : PcapStream) : List Record × Option IoError :=
  match _next : s.nextRecord with
  | (.ok (some record), s') =>
    let rest := readAll s'
    (record :: rest.1, rest.2)
  | (.ok none, _) => ([], none)
  | (.error e, _) => ([], some e)
termination_by s.reader.bytes.length
decreasing_by exact nextRecord_shrinks _next

end PcapStream

end NetObserver
