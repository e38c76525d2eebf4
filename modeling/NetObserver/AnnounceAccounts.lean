import NetObserver.AnnounceBounds
import NetObserver.AnnounceSource
import NetObserver.PcapCuts
import NetObserver.Runs

/-! Every record of the capture stream is heard in one window of the listener. -/

namespace NetObserver

open Machine Runs

/-- A window that was closed: what it was opened on, the frames it heard, and why the stream
ended in it if it did. -/
structure ClosedWindow where
  reading : SegmentIdentityReading
  frames : List (List UInt8)
  ended : Option String
  tsUs : Int

namespace ClosedWindow

def window (c : Decoders) (iface : Option String) (w : ClosedWindow) : Window :=
  (Window.new w.reading.ownMac w.reading.networkKey iface).absorbAll c w.frames

def flushed (c : Decoders) (iface : Option String) (w : ClosedWindow) : List NeighborsSample :=
  if w.ended.isNone || !w.frames.isEmpty then [(w.window c iface).flush w.tsUs] else []

def bracket (iface : Option String) (w : ClosedWindow) : List NeighborsSample :=
  (w.ended.map (stopped w.tsUs w.reading.networkKey iface)).toList

def batch (c : Decoders) (iface : Option String) (w : ClosedWindow) : Batch :=
  some (w.flushed c iface ++ w.bracket iface)

end ClosedWindow

/-- Where the records of a stream went: into windows closed at their deadlines, into the one the
stream ended in, into the open one, or nowhere yet. -/
structure Account where
  closed : List ClosedWindow
  last : Option ClosedWindow
  pending : List (List UInt8)
  unread : List (List UInt8)

def Account.windows (a : Account) : List ClosedWindow := a.closed ++ a.last.toList

def Account.taken (a : Account) : List (List UInt8) := a.windows.flatMap ClosedWindow.frames

def AnnounceSource.queued (s : AnnounceSource) : List (List UInt8) :=
  match s.rx with
  | some r => r.queue.filterMap Feed.bytes?
  | none => []

def streamFrames (s : PcapStream) : List (List UInt8) := s.readAll.1.map Record.data

/-- A step by which the capture thread fails rather than the stream. -/
def SourceStep.fails : SourceStep → Bool
  | .next _ refused _ => refused.isSome
  | .lose => true
  | .send | .receive _ | .deadline _ => false

/-- What the reader thread still has to read and to hand over. -/
def ReadKept (reader : Reader) (sound : Prop) (s : AnnounceSource) (a : Account) : Prop :=
  match s.rx with
  | none => a.unread = streamFrames (.new reader) ∧
      (s.done = false → s.reader = some reader) ∧ (s.done = true → ¬ sound)
  | some r =>
    match r.stream with
    | some stream => a.unread = streamFrames stream ∧ (∀ f ∈ r.queue, f.bytes?.isSome) ∧
        stream.readAll.2 = (PcapStream.new reader).readAll.2 ∧ s.done = false
    | none => sound → a.unread = [] ∧
        (s.done = false → ∃ sent : List (List UInt8), r.queue =
          sent.map Feed.frame ++ [.ended (streamEnd (PcapStream.new reader).readAll.2)]) ∧
        (s.done = true → r.queue = [] ∧
          ∀ w, a.last = some w → w.ended = some (streamEnd (PcapStream.new reader).readAll.2))

/-- What the source returned, holds and has not read is the stream, and each of its windows was
told as it was closed. -/
structure SourceTold (c : Decoders) (reader : Reader) (iface : Option String)
    (s : AnnounceSource) (returned : List Batch) (a : Account) : Prop where
  records : a.taken ++ a.pending ++ s.queued ++ a.unread = streamFrames (.new reader)
  closed : ∀ w ∈ a.closed, w.ended = none
  last : ∀ w, a.last = some w → w.ended.isSome = true
  done : s.done = a.last.isSome
  returned : ∃ later, returned = a.windows.map (ClosedWindow.batch c iface) ++
    List.replicate later none ∧ (s.done = false → later = 0)
  idle : s.call = none → a.pending = []
  open_ : ∀ d, s.call = some d → s.done = false ∧ s.rx.isSome = true ∧
    ∃ reading : SegmentIdentityReading,
      d = ⟨(Window.new reading.ownMac reading.networkKey iface).absorbAll c a.pending,
        reading.networkKey⟩
  heardOn : s.iface = iface

namespace Account

def close (a : Account) (w : ClosedWindow) : Account :=
  match w.ended with
  | none => { a with closed := a.closed ++ [w], pending := [] }
  | some _ => { a with last := some w, pending := [] }

theorem close_windows {a : Account} (open_ : a.last = none) (w : ClosedWindow) :
    (a.close w).windows = a.windows ++ [w] := by
  unfold close
  split <;> simp [windows, open_]

theorem close_taken {a : Account} (open_ : a.last = none) (w : ClosedWindow) :
    (a.close w).taken = a.taken ++ w.frames := by
  simp [taken, close_windows open_]

theorem close_unread (a : Account) (w : ClosedWindow) : (a.close w).unread = a.unread := by
  unfold close
  split <;> rfl

theorem close_pending (a : Account) (w : ClosedWindow) : (a.close w).pending = [] := by
  unfold close
  split <;> rfl

end Account

theorem Window.absorbAll_isEmpty (c : Decoders) (own : Option MacAddr)
    (networkKey iface : Option String) (frames : List (List UInt8)) :
    ((Window.new own networkKey iface).absorbAll c frames).isEmpty = frames.isEmpty := by
  have kept := windowKept_absorbAll c own networkKey iface frames
  rw [Window.isEmpty, kept.heard]
  cases frames with
  | nil => rfl
  | cons bytes rest =>
    have more : min (bytes :: rest).length u32Max ≠ 0 := by
      simp only [List.length_cons, u32Max]
      omega
    simpa using more

section

variable {c : Decoders} {reader : Reader} {iface : Option String} {sound : Prop}
  {s : AnnounceSource} {returned : List Batch} {a : Account}

theorem AnnounceSource.flush_returns (s : AnnounceSource) (w : ClosedWindow) :
    (s.flush ⟨w.window c s.iface, w.reading.networkKey⟩ w.ended w.tsUs).2 =
      [w.batch c s.iface] := by
  obtain ⟨reading, frames, ended, tsUs⟩ := w
  have empty := Window.absorbAll_isEmpty c reading.ownMac reading.networkKey s.iface frames
  simp only [flush, ClosedWindow.window, empty]
  cases ended with
  | none => rfl
  | some reason => rfl

@[simp] theorem AnnounceSource.flush_rx (s : AnnounceSource) (d : Draining) (ended : Option String)
    (tsUs : Int) : (s.flush d ended tsUs).1.rx = s.rx := by
  cases ended <;> rfl

@[simp] theorem AnnounceSource.flush_iface (s : AnnounceSource) (d : Draining)
    (ended : Option String) (tsUs : Int) : (s.flush d ended tsUs).1.iface = s.iface := by
  cases ended <;> rfl

@[simp] theorem AnnounceSource.flush_call (s : AnnounceSource) (d : Draining)
    (ended : Option String) (tsUs : Int) : (s.flush d ended tsUs).1.call = none := by
  cases ended <;> rfl

theorem AnnounceSource.flush_done {s : AnnounceSource} (on : s.done = false) (d : Draining)
    (ended : Option String) (tsUs : Int) : (s.flush d ended tsUs).1.done = ended.isSome := by
  cases ended with
  | none => exact on
  | some reason => rfl

namespace SourceTold

theorem last_none (told : SourceTold c reader iface s returned a) (on : s.done = false) :
    a.last = none := by
  have same := told.done
  rw [on] at same
  exact Option.isNone_iff_eq_none.mp (by simpa using same.symm)

/-- A window that is closed is the next one told. -/
theorem returned_close (told : SourceTold c reader iface s returned a) (on : s.done = false)
    (w : ClosedWindow) : returned ++ [w.batch c iface] =
      (a.close w).windows.map (ClosedWindow.batch c iface) ++ List.replicate 0 none := by
  obtain ⟨later, before, none_later⟩ := told.returned
  have zero := none_later on
  subst zero
  rw [Account.close_windows (told.last_none on), before]
  simp only [List.replicate_zero, List.append_nil, List.map_append, List.map_cons, List.map_nil]

/-- A call that returns closes its window. -/
theorem flush (told : SourceTold c reader iface s returned a) {d : Draining}
    (call : s.call = some d) (ended : Option String) (tsUs : Int) :
    ∃ w : ClosedWindow, w.ended = ended ∧ SourceTold c reader iface (s.flush d ended tsUs).1
      (returned ++ (s.flush d ended tsUs).2) (a.close w) := by
  obtain ⟨on, _, reading, rfl⟩ := told.open_ d call
  have open_ := told.last_none on
  let w : ClosedWindow := ⟨reading, a.pending, ended, tsUs⟩
  have returns := s.flush_returns (c := c) w
  rw [told.heardOn] at returns
  refine ⟨w, rfl, ?_, ?_, ?_, ?_, ?_, ?_, ?_, ?_⟩
  · have records := told.records
    have queued : (s.flush ⟨(Window.new reading.ownMac reading.networkKey iface).absorbAll c
        a.pending, reading.networkKey⟩ ended tsUs).1.queued = s.queued := by
      rw [AnnounceSource.queued, AnnounceSource.flush_rx, AnnounceSource.queued]
    rw [Account.close_taken open_, Account.close_pending, Account.close_unread, queued,
      List.append_nil]
    exact records
  · intro w' mem
    cases ended with
    | none =>
      rcases List.mem_append.mp mem with old | new
      · exact told.closed w' old
      · rw [List.mem_singleton.mp new]
    | some reason => exact told.closed w' mem
  · intro w' found
    cases ended with
    | none => exact told.last w' found
    | some reason =>
      rw [← Option.some.inj found]
      rfl
  · rw [AnnounceSource.flush_done on]
    cases ended with
    | none => exact (congrArg Option.isSome open_).symm
    | some reason => rfl
  · refine ⟨0, ?_, fun _ => rfl⟩
    rw [← told.returned_close on w]
    exact congrArg (returned ++ ·) returns
  · intro _
    exact Account.close_pending a w
  · intro d' call'
    rw [AnnounceSource.flush_call] at call'
    cases call'
  · rw [AnnounceSource.flush_iface]
    exact told.heardOn

/-- A state that differs only in how far the reader thread is. -/
theorem with_rx (told : SourceTold c reader iface s returned a) {r : ReadStream}
    {unread : List (List UInt8)}
    (records : a.taken ++ a.pending ++ r.queue.filterMap Feed.bytes? ++ unread =
      streamFrames (.new reader)) :
    SourceTold c reader iface { s with rx := some r } returned { a with unread := unread } :=
  ⟨records, told.closed, told.last, told.done, told.returned, told.idle,
    fun d call => ⟨(told.open_ d call).1, rfl, (told.open_ d call).2.2⟩, told.heardOn⟩

/-- A call begins with an empty window. -/
theorem opened (told : SourceTold c reader iface s returned a) (on : s.done = false)
    (idle : s.call = none) (reading : SegmentIdentityReading) {s' : AnnounceSource}
    (rx : s'.rx.isSome = true) (queued : s'.queued = s.queued) (iface_ : s'.iface = s.iface)
    (done : s'.done = s.done)
    (call : s'.call = some ⟨.new reading.ownMac reading.networkKey s.iface, reading.networkKey⟩) :
    SourceTold c reader iface s' returned a := by
  have pending := told.idle idle
  refine ⟨?_, told.closed, told.last, done.trans told.done, ?_, ?_, ?_, iface_.trans told.heardOn⟩
  · rw [queued]
    exact told.records
  · obtain ⟨later, before, none_later⟩ := told.returned
    exact ⟨later, before, fun _ => none_later on⟩
  · intro idle'
    rw [call] at idle'
    cases idle'
  · intro d call'
    rw [call] at call'
    refine ⟨done.trans on, rx, reading, ?_⟩
    rw [pending, ← Option.some.inj call', told.heardOn]
    rfl

end SourceTold

theorem ReadKept.weaken {sound' : Prop} (read : ReadKept reader sound s a) (weaker : sound' → sound) :
    ReadKept reader sound' s a := by
  unfold ReadKept at read ⊢
  split
  next rx =>
    rw [rx] at read
    exact ⟨read.1, read.2.1, fun done fair => read.2.2 done (weaker fair)⟩
  next r rx =>
    rw [rx] at read
    dsimp only at read
    split
    next stream running =>
      rw [running] at read
      exact read
    next gone =>
      rw [gone] at read
      exact fun fair => read (weaker fair)

theorem allFrames {queue : List Feed} (frames : ∀ f ∈ queue, f.bytes?.isSome) :
    queue = (queue.filterMap Feed.bytes?).map Feed.frame := by
  induction queue with
  | nil => rfl
  | cons f rest ih =>
    cases f with
    | frame bytes =>
      have tail := ih fun g mem => frames g (List.mem_cons_of_mem _ mem)
      exact congrArg (Feed.frame bytes :: ·) tail
    | ended reason => exact absurd (frames _ (List.mem_cons_self ..)) (by simp [Feed.bytes?])

/-- Both halves of what a run keeps to; `sound` says that the capture thread did not fail. -/
structure SourceKept (c : Decoders) (reader : Reader) (iface : Option String) (sound : Prop)
    (s : AnnounceSource) (returned : List Batch) (a : Account) : Prop where
  told : SourceTold c reader iface s returned a
  read : ReadKept reader sound s a

namespace SourceKept

theorem new (c : Decoders) (reader : Reader) (iface : Option String) (sound : Prop) :
    SourceKept c reader iface sound (.new reader iface) []
      ⟨[], none, [], streamFrames (.new reader)⟩ where
  told := by
    refine ⟨rfl, ?_, ?_, rfl, ⟨0, rfl, fun _ => rfl⟩, fun _ => rfl, ?_, rfl⟩
    · intro w mem
      cases mem
    · intro w found
      cases found
    · intro d call
      cases call
  read := ⟨rfl, fun _ => rfl, fun done => by cases done⟩

/-- A call for which no reader thread can be started ends the source. -/
theorem next_refused {sound' : Prop} (kept : SourceKept c reader iface sound s returned a)
    (idle : s.call = none) (on : s.done = false) (rx : s.rx = none)
    (reading : SegmentIdentityReading) (reason : String) (nowUs : Int) {w : ClosedWindow}
    (window : w = ⟨reading, [], some reason, nowUs⟩)
    (fails : sound' → False) :
    SourceKept c reader iface sound' { s with reader := none, rx := none, done := true }
      (returned ++ [w.batch c iface]) (a.close w) := by
  have told := kept.told
  have open_ := told.last_none on
  have pending := told.idle idle
  have read := kept.read
  unfold ReadKept at read
  rw [rx] at read
  have nothing : s.queued = [] := by
    rw [AnnounceSource.queued, rx]
  have close : a.close w = { a with last := some w, pending := [] } := by
    rw [window]
    rfl
  refine ⟨⟨?_, ?_, ?_, ?_, ⟨0, told.returned_close on w, ?_⟩, ?_, ?_, told.heardOn⟩, ?_⟩
  · have records := told.records
    rw [nothing, pending] at records
    rw [Account.close_taken open_, Account.close_pending, Account.close_unread, window]
    simpa [AnnounceSource.queued] using records
  · rw [close]
    exact told.closed
  · intro w' found
    rw [close] at found
    rw [← Option.some.inj found, window]
    rfl
  · rw [close]
    rfl
  · exact fun _ => rfl
  · exact fun _ => Account.close_pending a w
  · intro d call
    change s.call = some d at call
    rw [idle] at call
    cases call
  · refine ⟨?_, ?_, fun _ => fails⟩
    · rw [Account.close_unread]
      exact read.1
    · intro off
      cases off

theorem next (kept : SourceKept c reader iface sound s returned a) (idle : s.call = none)
    (reading : SegmentIdentityReading) (refused : Option String) (nowUs : Int) :
    ∃ a', SourceKept c reader iface (sound ∧ refused.isSome = false)
      (s.next reading refused nowUs).1 (returned ++ (s.next reading refused nowUs).2) a' := by
  have told := kept.told
  unfold AnnounceSource.next
  split
  next done =>
    refine ⟨a, ⟨told.records, told.closed, told.last, told.done, ?_, told.idle, told.open_,
      told.heardOn⟩, kept.read.weaken And.left⟩
    obtain ⟨later, before, _⟩ := told.returned
    refine ⟨later + 1, ?_, fun on => ?_⟩
    · rw [before, List.append_assoc, List.replicate_succ']
    · rw [done] at on
      cases on
  next more =>
    have on : s.done = false := Bool.eq_false_iff.mpr more
    cases rx : s.rx with
    | some r =>
      simp only [AnnounceSource.feed, rx, List.append_nil]
      refine ⟨a, told.opened on idle reading rfl ?_ rfl rfl rfl, ?_⟩
      · rw [AnnounceSource.queued, AnnounceSource.queued, rx]
      · have read : ReadKept reader (sound ∧ refused.isSome = false) s a :=
          kept.read.weaken And.left
        unfold ReadKept at read ⊢
        rw [rx] at read
        exact read
    | none =>
      have read := kept.read
      unfold ReadKept at read
      rw [rx] at read
      have held := read.2.1 on
      have nothing : s.queued = [] := by
        rw [AnnounceSource.queued, rx]
      simp only [AnnounceSource.feed, rx, held]
      cases refused with
      | some e =>
        have closed := kept.next_refused idle on rx reading
          ("could not start the capture reader thread: " ++ e) nowUs rfl
          fun started : sound ∧ (some e).isSome = false => nomatch started.2
        rw [← told.heardOn] at closed ⊢
        exact ⟨_, closed⟩
      | none =>
        refine ⟨a, ?_, ?_⟩
        · rw [List.append_nil]
          refine told.opened on idle reading rfl ?_ rfl rfl rfl
          rw [nothing]
          rfl
        · refine ⟨read.1, ?_, rfl, on⟩
          intro f mem
          cases mem

/-- The reader thread hands over how the stream ended, and nothing is left to read. -/
theorem handsEnd (kept : SourceKept c reader iface sound s returned a) {stream : PcapStream}
    {queue : List Feed} (rx : s.rx = some ⟨some stream, queue⟩) {outcome : Option IoError}
    (whole : stream.readAll = ([], outcome)) :
    SourceKept c reader iface sound
      { s with rx := some ⟨none, queue ++ [.ended (streamEnd outcome)]⟩ } returned
      { a with unread := [] } := by
  have read := kept.read
  have records := kept.told.records
  unfold ReadKept at read
  rw [rx] at read
  simp only [AnnounceSource.queued, rx] at records
  obtain ⟨unread, frames, end_, on⟩ := read
  refine ⟨kept.told.with_rx ?_, ?_⟩
  · rw [← records, unread, streamFrames, whole]
    simp [Feed.bytes?]
  · intro _
    refine ⟨rfl, fun _ => ?_, fun done => ?_⟩
    · rw [← end_, whole]
      exact ⟨_, congrArg (· ++ _) (allFrames frames)⟩
    · exact absurd done (by simp [on])

theorem send (kept : SourceKept c reader iface sound s returned a) :
    ∃ a', SourceKept c reader iface sound { s with rx := s.rx.map ReadStream.send } returned a' := by
  have told := kept.told
  have read := kept.read
  have records := told.records
  unfold ReadKept at read
  cases rx : s.rx with
  | none =>
    have same : { s with rx := (none : Option ReadStream).map ReadStream.send } = s := by
      rw [← rx]
      cases s
      cases rx
      rfl
    exact ⟨a, same ▸ kept⟩
  | some r =>
    obtain ⟨stream, queue⟩ := r
    simp only [AnnounceSource.queued, rx] at records
    rw [rx] at read
    cases stream with
    | none =>
      have same : { s with rx := (some (⟨none, queue⟩ : ReadStream)).map ReadStream.send } = s := by
        cases s
        cases rx
        rfl
      exact ⟨a, same ▸ kept⟩
    | some stream =>
      obtain ⟨unread, frames, end_, on⟩ := read
      simp only [Option.map_some, ReadStream.send]
      split
      · refine ⟨a, told.with_rx records, ?_⟩
        exact ⟨unread, frames, end_, on⟩
      · split
        next record rest next =>
          have whole := PcapStream.readAll_record next
          refine ⟨{ a with unread := streamFrames rest }, told.with_rx ?_, ?_⟩
          · rw [← records, unread, streamFrames, streamFrames, whole]
            simp [Feed.bytes?]
          · refine ⟨rfl, ?_, ?_, on⟩
            · intro f mem
              rcases List.mem_append.mp mem with old | new
              · exact frames f old
              · rw [List.mem_singleton.mp new]
                rfl
            · rw [← end_, whole]
        next _ next => exact ⟨_, kept.handsEnd rx (PcapStream.readAll_end next)⟩
        next e _ next => exact ⟨_, kept.handsEnd rx (PcapStream.readAll_error next)⟩

theorem lose (kept : SourceKept c reader iface sound s returned a) :
    SourceKept c reader iface False
      { s with rx := s.rx.map fun r => { r with stream := none } } returned a := by
  have told := kept.told
  cases rx : s.rx with
  | none =>
    have same : { s with rx := (none : Option ReadStream).map fun r => { r with stream := none } } =
        s := by
      cases s
      cases rx
      rfl
    rw [same]
    exact ⟨told, kept.read.weaken False.elim⟩
  | some r =>
    have records := told.records
    simp only [AnnounceSource.queued, rx] at records
    exact ⟨told.with_rx records, fun impossible => impossible.elim⟩

section

variable {d : Draining} {stream : Option PcapStream} {queue : List Feed}

/-- A frame is taken up by the window that is open. -/
theorem receive_frame (kept : SourceKept c reader iface sound s returned a)
    (call : s.call = some d) {bytes : List UInt8}
    (rx : s.rx = some ⟨stream, .frame bytes :: queue⟩) :
    SourceKept c reader iface sound
      { s with rx := some ⟨stream, queue⟩, call := some { d with window := d.window.absorb c bytes } }
      returned { a with pending := a.pending ++ [bytes] } := by
  have told := kept.told
  have read := kept.read
  have records := told.records
  obtain ⟨on, _, reading, opened⟩ := told.open_ d call
  unfold ReadKept at read
  rw [rx, on] at read
  simp only [AnnounceSource.queued, rx] at records
  refine ⟨⟨?_, told.closed, told.last, told.done, told.returned, ?_, ?_, told.heardOn⟩, ?_⟩
  · rw [← records]
    simp [AnnounceSource.queued, Feed.bytes?, Account.taken, Account.windows]
  · intro idle
    cases idle
  · intro d' same
    rw [← Option.some.inj same, opened]
    refine ⟨on, rfl, reading, ?_⟩
    simp [Window.absorbAll]
  · cases stream with
    | some stream =>
      obtain ⟨unread, frames, end_, _⟩ := read
      exact ⟨unread, fun f mem => frames f (List.mem_cons_of_mem _ mem), end_, on⟩
    | none =>
      intro fair
      obtain ⟨unread, sent, _⟩ := read fair
      refine ⟨unread, fun _ => ?_, fun done => absurd done (by simp [on])⟩
      obtain ⟨sent, front⟩ := sent rfl
      cases sent with
      | nil => cases front
      | cons first sent => exact ⟨sent, (List.cons.inj front).2⟩

/-- The end of the stream closes the last window. -/
theorem receive_ended (kept : SourceKept c reader iface sound s returned a)
    (call : s.call = some d) {reason : String}
    (rx : s.rx = some ⟨stream, .ended reason :: queue⟩) (nowUs : Int) :
    ∃ a', SourceKept c reader iface sound
      ({ s with rx := some ⟨stream, queue⟩ }.flush d (some reason) nowUs).1
      (returned ++ ({ s with rx := some ⟨stream, queue⟩ }.flush d (some reason) nowUs).2) a' := by
  have read := kept.read
  have records := kept.told.records
  obtain ⟨on, _⟩ := kept.told.open_ d call
  unfold ReadKept at read
  rw [rx, on] at read
  simp only [AnnounceSource.queued, rx] at records
  have before : SourceTold c reader iface { s with rx := some ⟨stream, queue⟩ } returned a :=
    kept.told.with_rx records
  obtain ⟨w, ended, told⟩ := before.flush call (some reason) nowUs
  refine ⟨_, told, ?_⟩
  have off := AnnounceSource.flush_done (s := { s with rx := some ⟨stream, queue⟩ }) on d
    (some reason) nowUs
  unfold ReadKept
  rw [AnnounceSource.flush_rx, off, Account.close_unread]
  cases stream with
  | some stream =>
    have frame := read.2.1 _ (List.mem_cons_self ..)
    cases frame
  | none =>
    intro fair
    obtain ⟨unread, sent, _⟩ := read fair
    refine ⟨unread, fun running => (by cases running), fun _ => ?_⟩
    obtain ⟨sent, front⟩ := sent rfl
    cases sent with
    | cons first sent => cases front
    | nil =>
      cases front
      refine ⟨rfl, fun w' found => ?_⟩
      rw [Account.close, ended] at found
      rw [← Option.some.inj found, ended]

/-- A reader thread that is gone without a word failed. -/
theorem receive_gone (kept : SourceKept c reader iface sound s returned a)
    (call : s.call = some d) (rx : s.rx = some ⟨none, []⟩) (reason : String) (nowUs : Int) :
    ∃ a', SourceKept c reader iface sound (s.flush d (some reason) nowUs).1
      (returned ++ (s.flush d (some reason) nowUs).2) a' := by
  have read := kept.read
  obtain ⟨on, _⟩ := kept.told.open_ d call
  unfold ReadKept at read
  rw [rx, on] at read
  obtain ⟨w, ended, told⟩ := kept.told.flush call (some reason) nowUs
  refine ⟨_, told, ?_⟩
  unfold ReadKept
  rw [AnnounceSource.flush_rx, rx]
  intro fair
  obtain ⟨_, sent, _⟩ := read fair
  obtain ⟨sent, front⟩ := sent rfl
  cases sent with
  | nil => cases front
  | cons first sent => cases front

theorem receive (kept : SourceKept c reader iface sound s returned a) {r : ReadStream}
    (call : s.call = some d) (rx : s.rx = some r) (nowUs : Int) :
    ∃ a', SourceKept c reader iface sound (s.receive c d r nowUs).1
      (returned ++ (s.receive c d r nowUs).2) a' := by
  obtain ⟨stream, queue⟩ := r
  unfold AnnounceSource.receive
  dsimp only
  split
  next bytes rest =>
    rw [List.append_nil]
    exact ⟨_, kept.receive_frame call rx⟩
  next reason rest => exact kept.receive_ended call rx nowUs
  next =>
    cases stream with
    | some stream => exact ⟨a, by simpa using kept⟩
    | none => exact kept.receive_gone call rx "capture reader thread gone" nowUs

end

theorem deadline (kept : SourceKept c reader iface sound s returned a) {d : Draining}
    (call : s.call = some d) (nowUs : Int) :
    ∃ a', SourceKept c reader iface sound (s.flush d none nowUs).1
      (returned ++ (s.flush d none nowUs).2) a' := by
  obtain ⟨w, ended, told⟩ := kept.told.flush call none nowUs
  obtain ⟨on, running, _⟩ := kept.told.open_ d call
  obtain ⟨r, rx⟩ := Option.isSome_iff_exists.mp running
  have read := kept.read
  refine ⟨_, told, ?_⟩
  have off := AnnounceSource.flush_done on d none nowUs
  unfold ReadKept at read ⊢
  rw [AnnounceSource.flush_rx, off, Account.close_unread, rx]
  rw [rx, on] at read
  dsimp only at read ⊢
  split
  next stream running' =>
    rw [running'] at read
    exact read
  next returned' =>
    rw [returned'] at read
    intro fair
    obtain ⟨unread, queue, _⟩ := read fair
    refine ⟨unread, fun _ => queue rfl, ?_⟩
    intro done
    cases done

theorem step (kept : SourceKept c reader iface sound s returned a) (x : SourceStep) :
    ∃ a', SourceKept c reader iface (sound ∧ x.fails = false) (s.step c x).1
      (returned ++ (s.step c x).2) a' := by
  have same : SourceKept c reader iface (sound ∧ x.fails = false) s (returned ++ []) a :=
    ⟨by simpa using kept.told, kept.read.weaken And.left⟩
  cases x with
  | next reading refused nowUs =>
    unfold AnnounceSource.step
    dsimp only
    split
    next => exact ⟨a, same⟩
    next idle => exact kept.next idle reading refused nowUs
  | send =>
    obtain ⟨a', told, read⟩ := kept.send
    exact ⟨a', by simpa [AnnounceSource.step] using told, read.weaken And.left⟩
  | lose =>
    obtain ⟨told, read⟩ := kept.lose
    exact ⟨a, by simpa [AnnounceSource.step] using told, read.weaken fun lost => by cases lost.2⟩
  | receive nowUs =>
    unfold AnnounceSource.step
    dsimp only
    split
    next d r call rx =>
      obtain ⟨a', told, read⟩ := kept.receive call rx nowUs
      exact ⟨a', told, read.weaken And.left⟩
    next => exact ⟨a, same⟩
  | deadline nowUs =>
    unfold AnnounceSource.step
    dsimp only
    split
    next d call =>
      obtain ⟨a', told, read⟩ := kept.deadline call nowUs
      exact ⟨a', told, read.weaken And.left⟩
    next => exact ⟨a, same⟩

end SourceKept

/-- A run in which the capture thread starts and does not fail. -/
def Sound (steps : List SourceStep) : Prop := ∀ x ∈ steps, x.fails = false

theorem sourceKept_run (c : Decoders) (reader : Reader) (iface : Option String)
    (steps : List SourceStep) :
    ∃ a, SourceKept c reader iface (Sound steps)
      (emit (AnnounceSource.step c) (.new reader iface) steps).1
      (emit (AnnounceSource.step c) (.new reader iface) steps).2 a := by
  refine emit_induct (P := fun steps s returned =>
    ∃ a, SourceKept c reader iface (Sound steps) s returned a) ?_ ?_ steps
  · exact ⟨_, .new c reader iface _⟩
  · rintro steps s returned x ⟨a, kept⟩
    obtain ⟨a', told, read⟩ := kept.step x
    refine ⟨a', told, read.weaken fun fair => ⟨?_, ?_⟩⟩
    · exact fun y mem => fair y (List.mem_append_left _ mem)
    · exact fair x (List.mem_append_right _ (List.mem_singleton_self x))

/-- How many steps of the reader and the source the stream still needs at most. -/
def ReadStream.left (r : ReadStream) : Nat :=
  r.queue.length + match r.stream with
    | some stream => 2 * (streamFrames stream).length + 2
    | none => 0

theorem ReadStream.send_left (stream : PcapStream) :
    (send ⟨some stream, []⟩).left < left ⟨some stream, []⟩ := by
  have room : ¬ frameQueue ≤ ([] : List Feed).length := by decide
  simp only [send, if_neg room]
  rcases next : stream.nextRecord with ⟨e | _ | record, rest⟩
  · simp only [left, List.nil_append, List.length_cons, List.length_nil]
    omega
  · simp only [left, List.nil_append, List.length_cons, List.length_nil]
    omega
  · have whole := PcapStream.readAll_record next
    simp only [left, streamFrames, whole, List.map_cons, List.nil_append, List.length_cons,
      List.length_nil]
    omega

/-- The source comes to its end within some more steps, which return so many batches. -/
def Ends (c : Decoders) (s : AnnounceSource) (batches : Nat) : Prop :=
  ∃ more, Sound more ∧ (emit (AnnounceSource.step c) s more).1.done = true ∧
    (emit (AnnounceSource.step c) s more).2.length = batches

theorem Ends.of_step {c : Decoders} {s : AnnounceSource} {x : SourceStep} {n : Nat}
    (quiet : (s.step c x).2 = []) (fair : x.fails = false) (ends : Ends c (s.step c x).1 n) :
    Ends c s n := by
  obtain ⟨more, sound, done, count⟩ := ends
  refine ⟨x :: more, ?_, ?_, ?_⟩
  · intro y mem
    rcases List.mem_cons.mp mem with rfl | later
    · exact fair
    · exact sound y later
  · rw [emit_cons]
    exact done
  · rw [emit_cons, quiet]
    exact count

theorem Ends.last {c : Decoders} {s : AnnounceSource} {d : Draining} {r : ReadStream}
    (call : s.call = some d) (rx : s.rx = some r)
    (ended : (∃ reason rest, r.queue = .ended reason :: rest) ∨ r.queue = [] ∧ r.stream = none) :
    Ends c s 1 := by
  refine ⟨[.receive 0], ?_, ?_⟩
  · intro x mem
    rw [List.mem_singleton.mp mem]
    rfl
  · rcases ended with ⟨reason, rest, queue⟩ | ⟨queue, stream⟩
    · simp [AnnounceSource.step, call, rx, AnnounceSource.receive, queue, AnnounceSource.flush]
    · simp [AnnounceSource.step, call, rx, AnnounceSource.receive, queue, stream,
        AnnounceSource.flush]

/-- A call that is not interrupted by its deadline hears the rest of the stream. -/
theorem drains (c : Decoders) {s : AnnounceSource} {d : Draining} {r : ReadStream}
    (call : s.call = some d) (rx : s.rx = some r) : Ends c s 1 := by
  induction left : r.left using Nat.strongRecOn generalizing s d r with
  | ind n ih =>
    obtain ⟨stream, queue⟩ := r
    cases queue with
    | cons f rest =>
      cases f with
      | frame bytes =>
        have fewer : ReadStream.left ⟨stream, rest⟩ < n := by
          rw [← left]
          simp only [ReadStream.left, List.length_cons]
          omega
        have next : s.step c (.receive 0) = ({ s with
            rx := some ⟨stream, rest⟩
            call := some { d with window := d.window.absorb c bytes } }, []) := by
          simp [AnnounceSource.step, call, rx, AnnounceSource.receive]
        refine Ends.of_step (x := .receive 0) (congrArg Prod.snd next) rfl ?_
        rw [next]
        exact ih _ fewer rfl rfl rfl
      | ended reason => exact Ends.last call rx (.inl ⟨reason, rest, rfl⟩)
    | nil =>
      cases stream with
      | none => exact Ends.last call rx (.inr ⟨rfl, rfl⟩)
      | some stream =>
        have fewer := ReadStream.send_left stream
        rw [left] at fewer
        have sent : (s.step c .send).1.rx = some (ReadStream.send ⟨some stream, []⟩) := by
          simp [AnnounceSource.step, rx]
        exact Ends.of_step (x := .send) rfl rfl (ih _ fewer call sent rfl)

/-- A call on a source that still has its reader finds the stream running. -/
theorem SourceKept.opens (kept : SourceKept c reader iface sound s returned a)
    (on : s.done = false) (idle : s.call = none) (reading : SegmentIdentityReading) (nowUs : Int) :
    (s.step c (.next reading none nowUs)).2 = [] ∧
      ∃ d r, (s.step c (.next reading none nowUs)).1.call = some d ∧
        (s.step c (.next reading none nowUs)).1.rx = some r := by
  cases rx : s.rx with
  | some r =>
    simp [AnnounceSource.step, idle, AnnounceSource.next, on, AnnounceSource.feed, rx]
  | none =>
    have read := kept.read
    unfold ReadKept at read
    rw [rx] at read
    have held := read.2.1 on
    simp [AnnounceSource.step, idle, AnnounceSource.next, on, AnnounceSource.feed, rx, held]

theorem SourceKept.ends (kept : SourceKept c reader iface sound s returned a) :
    ∃ batches, Ends c s batches := by
  cases done : s.done with
  | true => exact ⟨0, [], (fun _ mem => by cases mem), done, rfl⟩
  | false =>
    refine ⟨1, ?_⟩
    cases call : s.call with
    | some d =>
      obtain ⟨r, rx⟩ := Option.isSome_iff_exists.mp (kept.told.open_ d call).2.1
      exact drains c call rx
    | none =>
      obtain ⟨quiet, d, r, call, rx⟩ := kept.opens done call ⟨none, none⟩ 0
      exact Ends.of_step quiet rfl (drains c call rx)

end

def samplesOf (returned : List Batch) : List NeighborsSample := returned.flatMap fun b => b.getD []

def NeighborsSample.heardTotal (n : NeighborsSample) : Nat := n.heard.elim 0 HeardFrames.total

/-- The readings a run returned: the flushes of its windows, then what brackets its end. -/
structure ReadingsOf (done : Bool) (windows : List ClosedWindow) (samples : List NeighborsSample)
    (flushes brackets : List NeighborsSample) : Prop where
  order : samples = flushes ++ brackets
  plain : ∀ f ∈ flushes, f.isListenerBracket = false
  bracketing : ∀ b ∈ brackets, b.isListenerBracket = true
  one : brackets.length = if done then 1 else 0
  total : (flushes.map NeighborsSample.heardTotal).sum =
    (windows.map fun w => min w.frames.length u32Max).sum

/-- How a run accounts for its stream. The windows are in the order in which they were heard, each
returned as one batch, and after the batch with the bracket every call returns none. -/
structure StreamAccounted (c : Decoders) (reader : Reader) (iface : Option String)
    (steps : List SourceStep) (s : AnnounceSource) (returned : List Batch)
    (windows : List ClosedWindow) (pending unread : List (List UInt8)) : Prop where
  records : windows.flatMap ClosedWindow.frames ++ pending ++ s.queued ++ unread =
    streamFrames (.new reader)
  batches : ∃ later, returned = windows.map (ClosedWindow.batch c iface) ++
    List.replicate later none ∧ (s.done = false → later = 0)
  readings : ∃ flushes brackets, ReadingsOf s.done windows (samplesOf returned) flushes brackets
  opened : ∀ d, s.call = some d → ∃ reading : SegmentIdentityReading,
    d.window = (Window.new reading.ownMac reading.networkKey iface).absorbAll c pending
  returnedAll : s.call = none → pending = []
  whole : Sound steps → s.done = true →
    windows.flatMap ClosedWindow.frames = streamFrames (.new reader) ∧
      ∃ w, windows.getLast? = some w ∧
        w.ended = some (streamEnd (PcapStream.new reader).readAll.2)
  ends : ∃ batches, Ends c s batches

section

variable {c : Decoders} {reader : Reader} {iface : Option String} {sound : Prop}
  {s : AnnounceSource} {returned : List Batch} {a : Account}

theorem ClosedWindow.flushed_total (c : Decoders) (iface : Option String) (w : ClosedWindow) :
    ((w.flushed c iface).map NeighborsSample.heardTotal).sum = min w.frames.length u32Max := by
  have heard := (windowKept_absorbAll c w.reading.ownMac w.reading.networkKey iface w.frames).heard
  unfold flushed
  split
  next => simp [NeighborsSample.heardTotal, Window.flush, Window.heardFrames, window, heard]
  next cut =>
    have empty : w.frames = [] := by
      simp only [Bool.or_eq_true, Bool.not_eq_true', not_or, Bool.not_eq_false] at cut
      exact List.isEmpty_iff.mp cut.2
    rw [empty]
    simp

theorem ClosedWindow.flushed_not_bracket {w : ClosedWindow} {n : NeighborsSample}
    (mem : n ∈ w.flushed c iface) : n.isListenerBracket = false := by
  unfold flushed at mem
  split at mem
  · rw [List.mem_singleton.mp mem]
    rfl
  · cases mem

theorem samplesOf_batches (c : Decoders) (iface : Option String) {windows : List ClosedWindow}
    (closed : ∀ w ∈ windows, w.ended = none) :
    samplesOf (windows.map (ClosedWindow.batch c iface)) =
      windows.flatMap (ClosedWindow.flushed c iface) := by
  induction windows with
  | nil => rfl
  | cons w rest ih =>
    have here := closed w (List.mem_cons_self ..)
    have tail := ih fun w' mem => closed w' (List.mem_cons_of_mem _ mem)
    simp only [samplesOf, List.map_cons, List.flatMap_cons] at tail ⊢
    rw [tail]
    simp [ClosedWindow.batch, ClosedWindow.bracket, here]

theorem SourceTold.readings (told : SourceTold c reader iface s returned a) :
    ∃ flushes brackets, ReadingsOf s.done a.windows (samplesOf returned) flushes brackets := by
  obtain ⟨later, batches, _⟩ := told.returned
  have none_later : samplesOf (List.replicate later none) = [] := by
    simp [samplesOf]
  have totals (windows : List ClosedWindow) :
      ((windows.flatMap (ClosedWindow.flushed c iface)).map NeighborsSample.heardTotal).sum =
        (windows.map fun w => min w.frames.length u32Max).sum := by
    induction windows with
    | nil => rfl
    | cons w rest ih =>
      rw [List.flatMap_cons, List.map_append, List.sum_append, ih, ClosedWindow.flushed_total,
        List.map_cons, List.sum_cons]
  refine ⟨a.windows.flatMap (ClosedWindow.flushed c iface),
    a.last.toList.flatMap (ClosedWindow.bracket iface), ?_, ?_, ?_, ?_, totals a.windows⟩
  · have split : samplesOf returned =
        samplesOf (a.closed.map (ClosedWindow.batch c iface)) ++
          samplesOf (a.last.toList.map (ClosedWindow.batch c iface)) := by
      have empty : List.flatMap (fun b : Batch => b.getD []) (List.replicate later none) = [] :=
        none_later
      rw [batches, Account.windows]
      simp only [samplesOf, List.map_append, List.flatMap_append, empty, List.append_nil]
    rw [split, samplesOf_batches c iface told.closed, Account.windows, List.flatMap_append,
      List.append_assoc]
    cases a.last with
    | none => rfl
    | some w => simp [samplesOf, ClosedWindow.batch]
  · intro f mem
    obtain ⟨w, _, held⟩ := List.mem_flatMap.mp mem
    exact ClosedWindow.flushed_not_bracket held
  · intro b mem
    obtain ⟨w, _, held⟩ := List.mem_flatMap.mp mem
    obtain ⟨reason, _, rfl⟩ := Option.map_eq_some_iff.mp (Option.mem_toList.mp held)
    rfl
  · rw [told.done]
    cases last : a.last with
    | none => rfl
    | some w =>
      obtain ⟨reason, ended⟩ := Option.isSome_iff_exists.mp (told.last w last)
      simp [ClosedWindow.bracket, ended]

theorem SourceKept.whole (kept : SourceKept c reader iface sound s returned a) (fair : sound)
    (done : s.done = true) :
    a.taken = streamFrames (.new reader) ∧
      ∃ w, a.windows.getLast? = some w ∧
        w.ended = some (streamEnd (PcapStream.new reader).readAll.2) := by
  have told := kept.told
  have read := kept.read
  have records := told.records
  have idle : s.call = none := by
    cases call : s.call with
    | none => rfl
    | some d =>
      have on := (told.open_ d call).1
      rw [done] at on
      cases on
  obtain ⟨w, last⟩ : ∃ w, a.last = some w := by
    have same := told.done
    rw [done] at same
    exact Option.isSome_iff_exists.mp same.symm
  unfold ReadKept at read
  unfold AnnounceSource.queued at records
  cases rx : s.rx with
  | none =>
    rw [rx] at read
    exact absurd fair (read.2.2 done)
  | some r =>
    rw [rx] at read records
    cases stream : r.stream with
    | some stream' =>
      simp only [stream] at read
      rw [done] at read
      cases read.2.2.2
    | none =>
      simp only [stream] at read
      obtain ⟨unread, _, ended⟩ := read fair
      obtain ⟨queue, ended⟩ := ended done
      refine ⟨?_, w, ?_, ended w last⟩
      · dsimp only at records
        rw [told.idle idle, queue, unread] at records
        simpa using records
      · rw [Account.windows, last]
        simp

end

/-- Whatever the order in which the reader, the clock and the caller go on, every record of the
stream is heard in one window, in the order of the stream, and the end is told once, last. -/
theorem records_heard_once (c : Decoders) (reader : Reader) (iface : Option String)
    (steps : List SourceStep) :
    ∃ windows pending unread, StreamAccounted c reader iface steps
      (emit (AnnounceSource.step c) (.new reader iface) steps).1
      (emit (AnnounceSource.step c) (.new reader iface) steps).2 windows pending unread := by
  obtain ⟨a, kept⟩ := sourceKept_run c reader iface steps
  have told := kept.told
  refine ⟨a.windows, a.pending, a.unread, told.records, told.returned, told.readings, ?_, told.idle,
    kept.whole, kept.ends⟩
  intro d call
  obtain ⟨_, _, reading, opened⟩ := told.open_ d call
  exact ⟨reading, congrArg Draining.window opened⟩

/-- A window that hears more frames than its count can tell. -/
theorem heard_short_of_records :
    ∃ (records : List SavedRecord) (steps : List SourceStep), Sound steps ∧
      (emit (AnnounceSource.step discoverDecoders)
        (.new ⟨savefile .leMicros records, none⟩ none) steps).1.done = true ∧
      (((samplesOf (emit (AnnounceSource.step discoverDecoders)
        (.new ⟨savefile .leMicros records, none⟩ none) steps).2).filter
          fun n => !n.isListenerBracket).map NeighborsSample.heardTotal).sum ≠ records.length := by
  let records : List SavedRecord := List.replicate (2 ^ 32) ⟨0, 0, [], Nat.zero_le _⟩
  let reader : Reader := ⟨savefile .leMicros records, none⟩
  have count : records.length = 2 ^ 32 := List.length_replicate ..
  have frames : (streamFrames (.new reader)).length = 2 ^ 32 := by
    have whole := readCut_behind (m := .leMicros) (j := records.length) (Nat.le_refl _)
      (Nat.le_refl records.length) (savefile_length .leMicros records).ge
      (fun more => absurd more (Nat.lt_irrefl _))
    rw [readCut, List.take_length, List.take_length] at whole
    rw [streamFrames, whole, List.length_map, List.length_map, count]
  have start := SourceKept.new discoverDecoders reader none True
  obtain ⟨quiet, d, r, call, rx⟩ := start.opens rfl rfl ⟨none, none⟩ 0
  obtain ⟨steps, sound, done, batches⟩ := Ends.of_step quiet rfl (drains discoverDecoders call rx)
  obtain ⟨a, kept⟩ := sourceKept_run discoverDecoders reader none steps
  refine ⟨records, steps, sound, done, ?_⟩
  obtain ⟨taken, w, last, _⟩ := kept.whole sound done
  obtain ⟨later, returned, _⟩ := kept.told.returned
  have single : a.windows = [w] := by
    rw [returned, List.length_append, List.length_map, List.length_replicate] at batches
    obtain ⟨front, windows⟩ := List.getLast?_eq_some_iff.mp last
    rw [windows, List.length_append, List.length_singleton] at batches
    rw [windows, List.eq_nil_of_length_eq_zero (by omega : front.length = 0), List.nil_append]
  obtain ⟨flushes, brackets, order, plain, bracketing, _, total⟩ := kept.told.readings
  have kept_ : flushes.filter (fun n => !n.isListenerBracket) = flushes := by
    rw [List.filter_eq_self]
    intro f mem
    rw [plain f mem]
    rfl
  have gone : brackets.filter (fun n => !n.isListenerBracket) = [] := by
    rw [List.filter_eq_nil_iff]
    intro b mem
    rw [bracketing b mem]
    simp
  have heard : w.frames.length = 2 ^ 32 := by
    rw [Account.taken, single, List.flatMap_cons, List.flatMap_nil, List.append_nil] at taken
    rw [taken, frames]
  rw [order, List.filter_append, kept_, gone, List.append_nil, total, single, List.map_cons,
    List.map_nil, List.sum_cons, List.sum_nil, heard, count]
  simp [u32Max]

end NetObserver
