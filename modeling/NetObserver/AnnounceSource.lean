import NetObserver.AnnounceWindow
import NetObserver.PcapStream

/-! The announce listener: a thread reads the capture stream into a bounded channel, and each
`next` drains the channel into one window. -/

namespace NetObserver

inductive Feed where
  | frame (bytes : List UInt8)
  | ended (reason : String)

def Feed.bytes? : Feed → Option (List UInt8)
  | frame bytes => some bytes
  | ended _ => none

/-- How far the reader thread runs ahead of a flush. -/
def frameQueue : Nat := 4096

structure SegmentIdentityReading where
  networkKey : Option String
  ownMac : Option MacAddr

/-- The reader thread and what it sent that is not received; its stream is gone once it returned. -/
structure ReadStream where
  stream : Option PcapStream
  queue : List Feed

def streamEnd : Option IoError → String
  | none => "capture stream ended"
  | some e => "capture stream: " ++ e.message

/-- The thread reads one more record and sends it, unless the channel is full. -/
def ReadStream.send (r : ReadStream) : ReadStream :=
  match r.stream with
  | none => r
  | some stream =>
    if frameQueue ≤ r.queue.length then r
    else
      match stream.nextRecord with
      | (.ok (some record), rest) => ⟨some rest, r.queue ++ [.frame record.data]⟩
      | (.ok none, _) => ⟨none, r.queue ++ [.ended (streamEnd none)]⟩
      | (.error e, _) => ⟨none, r.queue ++ [.ended (streamEnd (some e))]⟩

/-- A `next` under way: its window, and the segment it was opened on. -/
structure Draining where
  window : Window
  networkKey : Option String

/-- The source; `call` is the `next` it is in. -/
structure AnnounceSource where
  reader : Option Reader
  rx : Option ReadStream
  iface : Option String
  done : Bool
  call : Option Draining

/-- What the reader thread, the clock and the caller of `next` do; `refused` is what a thread
could not be started with, `lose` the end of the thread without a word. -/
inductive SourceStep where
  | next (reading : SegmentIdentityReading) (refused : Option String) (nowUs : Int)
  | send
  | lose
  | receive (nowUs : Int)
  | deadline (nowUs : Int)

def stopped (tsUs : Int) (networkKey iface : Option String) (reason : String) :
    NeighborsSample where
  tsUs := tsUs
  verdict := .skip
  reason := some ("announce listener stopped: " ++ reason)
  networkKey := networkKey
  iface := iface
  neighbors := []
  services := []
  heard := some ⟨0, some 0, 0⟩

/-- A batch, or none after the last. -/
abbrev Batch := Option (List NeighborsSample)

namespace AnnounceSource

def new (reader : Reader) (iface : Option String) : AnnounceSource :=
  ⟨some reader, none, iface, false, none⟩

/-- Start the reader thread on first use. -/
def feed (s : AnnounceSource) (refused : Option String) : Except String Unit × AnnounceSource :=
  match s.rx with
  | some _ => (.ok (), s)
  | none =>
    match s.reader with
    | none => (.error "reader already taken", s)
    | some reader =>
      match refused with
      | some e =>
        (.error ("could not start the capture reader thread: " ++ e), { s with reader := none })
      | none => (.ok (), { s with reader := none, rx := some ⟨some (.new reader), []⟩ })

/-- The window is flushed and the call returns; one cut short is a reading only if it heard
something. -/
def flush (s : AnnounceSource) (d : Draining) (ended : Option String) (tsUs : Int) :
    AnnounceSource × List Batch :=
  let out := if ended.isNone || !d.window.isEmpty then [d.window.flush tsUs] else []
  match ended with
  | none => ({ s with call := none }, [some out])
  | some reason =>
    ({ s with call := none, done := true },
      [some (out ++ [stopped tsUs d.networkKey s.iface reason])])

def next (s : AnnounceSource) (reading : SegmentIdentityReading) (refused : Option String)
    (nowUs : Int) : AnnounceSource × List Batch :=
  if s.done then (s, [none])
  else
    match s.feed refused with
    | (.error reason, s) =>
      ({ s with done := true }, [some [stopped nowUs reading.networkKey s.iface reason]])
    | (.ok (), s) =>
      ({ s with call := some ⟨.new reading.ownMac reading.networkKey s.iface, reading.networkKey⟩ },
        [])

def receive (c : Decoders) (s : AnnounceSource) (d : Draining) (r : ReadStream) (nowUs : Int) :
    AnnounceSource × List Batch :=
  match r.queue with
  | .frame bytes :: queue =>
    ({ s with
        rx := some { r with queue := queue }
        call := some { d with window := d.window.absorb c bytes } }, [])
  | .ended reason :: queue => { s with rx := some { r with queue := queue } }.flush d (some reason) nowUs
  | [] => if r.stream.isNone then s.flush d (some "capture reader thread gone") nowUs else (s, [])

/-- One step, and what a `next` returned by it. A step that cannot be taken changes nothing. -/
def step (c : Decoders) (s : AnnounceSource) : SourceStep → AnnounceSource × List Batch
  | .next reading refused nowUs =>
    match s.call with
    | some _ => (s, [])
    | none => s.next reading refused nowUs
  | .send => ({ s with rx := s.rx.map ReadStream.send }, [])
  | .lose => ({ s with rx := s.rx.map fun r => { r with stream := none } }, [])
  | .receive nowUs =>
    match s.call, s.rx with
    | some d, some r => s.receive c d r nowUs
    | _, _ => (s, [])
  | .deadline nowUs =>
    match s.call with
    | some d => s.flush d none nowUs
    | none => (s, [])

end AnnounceSource

end NetObserver
