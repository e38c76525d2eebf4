import NetObserver.LogTail
import NetObserver.Runs

/-! What a log tail returns and counts over any run of writes, rotations and reads: the lines
and the losses of the file's generations. -/

namespace NetObserver

open Delimited (cut)

def admittedLines (admits : List UInt8 → Bool) (complete : List (List UInt8)) : List String :=
  (complete.filter fun raw => decide (raw.length ≤ partialCap) && admits raw).map
    Utf8Lossy.fromUtf8Lossy

def tooLong (raw : List UInt8) : Nat := if partialCap < raw.length then 1 else 0

/-- The lines a generation of the file holds for the tail. -/
def linesIn (admits : List UInt8 → Bool) (bytes : List UInt8) : List String :=
  admittedLines admits (cut newline bytes).1

/-- The lines of a generation that pass the cap, a running one included. -/
def lostIn (bytes : List UInt8) : Nat :=
  ((cut newline bytes).1.map tooLong).sum + tooLong (cut newline bytes).2

/-- What a generation loses in all once it is left: its last line too, if it is incomplete. -/
def lostBehind (bytes : List UInt8) : Nat :=
  let rest := (cut newline bytes).2
  lostIn bytes + if rest ≠ [] ∧ rest.length ≤ partialCap then 1 else 0

/-- What the tail keeps of an incomplete line. -/
def Buffers (rest buffer : List UInt8) (discarding : Bool) : Prop :=
  if partialCap < rest.length then buffer = [] ∧ discarding = true
  else buffer = rest ∧ discarding = false

theorem foldl_take_eq (admits : List UInt8 → Bool) (complete : List (List UInt8)) (s : Split)
    (kept : s.discarding = false) : complete.foldl (Split.take admits) s =
      { s with
        lines := s.lines ++ admittedLines admits complete
        dropped := s.dropped + (complete.map tooLong).sum } := by
  induction complete generalizing s with
  | nil => simp [admittedLines]
  | cons raw complete ih =>
    by_cases long : partialCap < raw.length
    · have short : ¬ raw.length ≤ partialCap := Nat.not_le_of_lt long
      rw [List.foldl_cons, ih _ (by simp [Split.take, kept, long])]
      simp [Split.take, kept, long, short, admittedLines, tooLong, Nat.add_assoc]
    · have short : raw.length ≤ partialCap := Nat.le_of_not_lt long
      cases admitted : admits raw with
      | false =>
        rw [List.foldl_cons, ih _ (by simp [Split.take, kept, long, admitted])]
        simp [Split.take, kept, long, admitted, admittedLines, tooLong]
      | true =>
        rw [List.foldl_cons, ih _ (by simp [Split.take, kept, long, admitted])]
        simp [Split.take, kept, long, short, admitted, admittedLines, tooLong]

theorem finish_spec (s : Split) (kept : s.discarding = false) (rest : List UInt8) :
    (s.finish rest).lines = s.lines ∧ (s.finish rest).dropped = s.dropped + tooLong rest ∧
      Buffers rest (s.finish rest).buffer (s.finish rest).discarding := by
  unfold Split.finish tooLong Buffers
  rw [if_neg (by rw [kept]; exact Bool.false_ne_true)]
  by_cases long : partialCap < rest.length
  · simp [long]
  · simp [long, kept]

theorem splitLines_fresh (admits : List UInt8 → Bool) (bytes : List UInt8) :
    let s := splitLines admits false bytes
    let c := cut newline bytes
    s.lines = admittedLines admits c.1 ∧ s.dropped = (c.1.map tooLong).sum + tooLong c.2 ∧
      Buffers c.2 s.buffer s.discarding := by
  have folded := foldl_take_eq admits (cut newline bytes).1 ⟨[], [], false, 0⟩ rfl
  simp only [splitLines, folded, List.nil_append, Nat.zero_add]
  exact finish_spec ⟨admittedLines admits (cut newline bytes).1, [], false,
    ((cut newline bytes).1.map tooLong).sum⟩ rfl (cut newline bytes).2

/-- Splitting behind an incomplete line, which may be a run dropped and counted before. -/
theorem splitLines_behind (admits : List UInt8 → Bool) {rest buffer : List UInt8} {discarding : Bool}
    (free : newline ∉ rest) (buffers : Buffers rest buffer discarding) (bytes : List UInt8) :
    let s := splitLines admits discarding (buffer ++ bytes)
    let c := cut newline (rest ++ bytes)
    s.lines = admittedLines admits c.1 ∧
      s.dropped + tooLong rest = (c.1.map tooLong).sum + tooLong c.2 ∧
      Buffers c.2 s.buffer s.discarding := by
  unfold Buffers at buffers
  by_cases long : partialCap < rest.length
  · rw [if_pos long] at buffers
    obtain ⟨rfl, rfl⟩ := buffers
    have counted : tooLong rest = 1 := if_pos long
    have longer (more : List UInt8) : partialCap < (rest ++ more).length := by
      rw [List.length_append]
      omega
    simp only [Delimited.cut_append_of_free free]
    rcases eq : cut newline bytes with ⟨_ | ⟨first, complete⟩, last⟩
    · have running : splitLines admits true ([] ++ bytes) = ⟨[], [], true, 0⟩ := by
        simp [splitLines, eq, Split.finish]
      have still := longer last
      have passed : tooLong (rest ++ last) = 1 := if_pos still
      simp only [running, counted, Delimited.prepend, List.map_nil, List.sum_nil, passed]
      exact ⟨rfl, trivial, by rw [Buffers, if_pos still]; exact ⟨rfl, rfl⟩⟩
    · have folded := foldl_take_eq admits complete ⟨[], [], false, 0⟩ rfl
      have ended : splitLines admits true ([] ++ bytes) =
          (complete.foldl (Split.take admits) ⟨[], [], false, 0⟩).finish last := by
        simp [splitLines, eq, Split.take]
      rw [ended, folded, counted]
      obtain ⟨lines, dropped, kept⟩ := finish_spec ⟨admittedLines admits complete, [], false,
        (complete.map tooLong).sum⟩ rfl last
      have short : ¬ (rest ++ first).length ≤ partialCap := Nat.not_le_of_lt (longer first)
      simp only [List.nil_append, Nat.zero_add]
      refine ⟨?_, ?_, kept⟩
      · have out : (decide ((rest ++ first).length ≤ partialCap) && admits (rest ++ first)) = false := by
          rw [decide_eq_false short, Bool.false_and]
        rw [lines]
        simp only [Delimited.prepend, admittedLines]
        rw [List.filter_cons_of_neg (by rw [out]; exact Bool.false_ne_true)]
      · rw [dropped]
        have passed : tooLong (rest ++ first) = 1 := if_pos (longer first)
        simp only [Delimited.prepend, List.map_cons, List.sum_cons, passed]
        omega
  · rw [if_neg long] at buffers
    obtain ⟨rfl, rfl⟩ := buffers
    have none : tooLong buffer = 0 := if_neg long
    obtain ⟨lines, dropped, kept⟩ := splitLines_fresh admits (buffer ++ bytes)
    exact ⟨lines, by rw [none]; exact dropped, kept⟩

/-- A read that goes on in a generation takes exactly what it holds beyond what was read. -/
theorem splitLines_more (admits : List UInt8 → Bool) {read buffer : List UInt8} {discarding : Bool}
    (buffers : Buffers (cut newline read).2 buffer discarding) (bytes : List UInt8) :
    let s := splitLines admits discarding (buffer ++ bytes)
    linesIn admits (read ++ bytes) = linesIn admits read ++ s.lines ∧
      lostIn (read ++ bytes) = lostIn read + s.dropped ∧
      Buffers (cut newline (read ++ bytes)).2 s.buffer s.discarding := by
  obtain ⟨lines, dropped, kept⟩ :=
    splitLines_behind admits (Delimited.rest_free newline read) buffers bytes
  have whole := Delimited.cut_append newline read bytes
  refine ⟨?_, ?_, ?_⟩
  · simp only [linesIn, whole, lines, admittedLines, List.filter_append, List.map_append]
  · simp only [lostIn, whole, List.map_append, List.sum_append]
    omega
  · rwa [whole]

/-- An incomplete last line is lost with its generation unless it was dropped before. -/
theorem lostBehind_eq {read buffer : List UInt8} {discarding : Bool}
    (buffers : Buffers (cut newline read).2 buffer discarding) :
    lostBehind read = lostIn read + if buffer = [] then 0 else 1 := by
  unfold Buffers at buffers
  unfold lostBehind
  by_cases long : partialCap < (cut newline read).2.length
  · rw [if_pos long] at buffers
    have short : ¬ (cut newline read).2.length ≤ partialCap := Nat.not_le_of_lt long
    simp [buffers.1, short]
  · rw [if_neg long] at buffers
    have short : (cut newline read).2.length ≤ partialCap := Nat.le_of_not_lt long
    rw [buffers.1]
    simp [short]

/-- How the file the last read was from was left since: not at all, cut to nothing in place with
what that read had seen of it, or moved away with all its bytes. -/
inductive Leaving where
  | here
  | cut (seen : List UInt8)
  | moved (bytes : List UInt8)

def Leaving.left : Leaving → List (List UInt8)
  | .here => []
  | .cut seen => [seen]
  | .moved bytes => [bytes]

/-- The generations of the log from the attach on: those left for good, the one being left, the
bytes at the path, and how much of them the last read saw. -/
structure LogHistory where
  finished : List (List UInt8)
  leaving : Leaving
  live : List UInt8
  seen : List UInt8

inductive LogStep where
  | append (bytes : List UInt8)
  | appendMoved (bytes : List UInt8)
  | truncate
  | move (ino : Nat)
  | read (now : Nat) (faults : IoFaults)

namespace LogHistory

def start : LogHistory := ⟨[], .here, [], []⟩

/-- What was truncated, or created and moved away again, before any read saw it is in no
generation. -/
def apply (h : LogHistory) : LogStep → LogHistory
  | .append bytes => { h with live := h.live ++ bytes }
  | .appendMoved bytes =>
    match h.leaving with
    | .moved left => { h with leaving := .moved (left ++ bytes) }
    | _ => h
  | .truncate =>
    match h.leaving with
    | .here => { h with leaving := .cut h.seen, live := [], seen := [] }
    | _ => { h with live := [], seen := [] }
  | .move _ =>
    match h.leaving with
    | .here => { h with leaving := .moved h.live, live := [], seen := [] }
    | _ => { h with live := [], seen := [] }
  | .read .. =>
    ⟨h.finished ++ h.leaving.left, .here, h.live, h.live⟩

def run (labels : List LogStep) : LogHistory := labels.foldl apply start

def lines (admits : List UInt8 → Bool) (h : LogHistory) : List String :=
  h.finished.flatMap (linesIn admits) ++ linesIn admits h.live

def lost (h : LogHistory) : Nat := (h.finished.map lostBehind).sum + lostIn h.live

end LogHistory

/-- The files, the tail over them, the file it was moved off, and what its reads returned. -/
structure TailRun where
  fs : FileSystem
  tail : LogTail
  away : Option Nat
  history : LogHistory
  lines : List String
  dropped : Nat

def FileSystem.write (fs : FileSystem) (ino : Nat) (bytes : List UInt8) : FileSystem :=
  { fs with content := fun i => if i = ino then bytes else fs.content i }

namespace TailRun

def start (maxGap : Nat) (admits : List UInt8 → Bool) (ino : Nat) (initial : List UInt8) : TailRun :=
  let fs : FileSystem := ⟨some ino, fun i => if i = ino then initial else []⟩
  ⟨fs, .openAtEnd fs .none maxGap admits, none, .start, [], 0⟩

def inTime (w : TailRun) (now : Nat) : Bool :=
  w.tail.lastRead.all fun last => decide (now - last < w.tail.maxGap)

/-- A file cut in place is found shorter than what was read of it. -/
def noticesCut (w : TailRun) : Bool :=
  match w.history.leaving, w.fs.path, w.tail.opened with
  | .cut _, some ino, some o => decide ((w.fs.content ino).length < o.offset)
  | _, _, _ => true

def readStep (w : TailRun) (now : Nat) (faults : IoFaults) : Option TailRun :=
  if w.inTime now && w.noticesCut then
    match w.tail.readNew w.fs faults now with
    | (tail, .ok out) =>
      some ⟨w.fs, tail, none, w.history.apply (.read now faults), w.lines ++ out.lines,
        w.dropped + out.droppedPartials⟩
    | (_, .error _) => none
  else none

def step (w : TailRun) : LogStep → Option TailRun
  | .append bytes => do
    let ino ← w.fs.path
    some { w with
      fs := w.fs.write ino (w.fs.content ino ++ bytes)
      history := w.history.apply (.append bytes) }
  | .appendMoved bytes => do
    let ino ← w.away
    some { w with
      fs := w.fs.write ino (w.fs.content ino ++ bytes)
      history := w.history.apply (.appendMoved bytes) }
  | .truncate => do
    let ino ← w.fs.path
    some { w with fs := w.fs.write ino [], history := w.history.apply .truncate }
  | .move ino => do
    let old ← w.fs.path
    match w.history.leaving with
    | .cut _ => none
    | _ =>
      -- The file just moved and the one the tail holds open keep their inodes.
      if ino ≠ old ∧ w.tail.opened.all (fun o => decide (o.ino ≠ ino)) then
        some { w with
          fs := { w.fs.write ino [] with path := some ino }
          away := w.away.or (some old)
          history := w.history.apply (.move ino) }
      else none
  | .read now faults => w.readStep now faults

/-- Where the open file stands against the history: at the path, cut there, or moved off it. -/
inductive Position (w : TailRun) (o : OpenFile) (read : List UInt8) : Prop where
  | here (front unread : List UInt8) (leaving : w.history.leaving = .here) (away : w.away = none)
      (path : w.fs.path = some o.ino) (content : w.fs.content o.ino = front ++ (read ++ unread))
      (live : w.history.live = read ++ unread) (seen : w.history.seen = read)
      (offset : o.offset = (front ++ read).length)
  | cut (leaving : w.history.leaving = .cut read) (away : w.away = none)
      (path : w.fs.path = some o.ino) (content : w.fs.content o.ino = w.history.live)
  | moved (front unread : List UInt8) (ino : Nat) (leaving : w.history.leaving = .moved (read ++ unread))
      (away : w.away = some o.ino) (path : w.fs.path = some ino) (other : ino ≠ o.ino)
      (live : w.fs.content ino = w.history.live)
      (content : w.fs.content o.ino = front ++ (read ++ unread))
      (offset : o.offset = (front ++ read).length)

/-- The tail has returned and counted what the bytes it has read hold, and buffers their end. -/
structure Tracks (w : TailRun) (admits : List UInt8 → Bool) (o : OpenFile) (read : List UInt8) :
    Prop where
  opened : w.tail.opened = some o
  predicate : w.tail.admits = admits
  position : w.Position o read
  buffers : Buffers (Delimited.cut newline read).2 w.tail.buffer w.tail.discarding
  lines : w.lines = w.history.finished.flatMap (linesIn admits) ++ linesIn admits read
  dropped : w.dropped = (w.history.finished.map lostBehind).sum + lostIn read

theorem tracks_start (maxGap : Nat) (admits : List UInt8 → Bool) (ino : Nat) (initial : List UInt8) :
    (start maxGap admits ino initial).Tracks admits ⟨ino, initial.length⟩ [] := by
  have content : (start maxGap admits ino initial).fs.content ino = initial := if_pos rfl
  have opened : (start maxGap admits ino initial).tail.opened = some ⟨ino, initial.length⟩ := by
    simp [start, LogTail.openAtEnd, LogTail.reopen, IoFaults.none, Except.toOption]
    rfl
  refine ⟨opened, rfl, ?_, ⟨rfl, rfl⟩, rfl, rfl⟩
  exact .here initial [] rfl rfl rfl (by simp [content]) rfl rfl (by simp)

theorem write_same (fs : FileSystem) (ino : Nat) (bytes : List UInt8) :
    (fs.write ino bytes).content ino = bytes := if_pos rfl

theorem write_other (fs : FileSystem) {ino i : Nat} (other : i ≠ ino) (bytes : List UInt8) :
    (fs.write ino bytes).content i = fs.content i := if_neg other

/-- A step that only writes to the files keeps what the tail has accounted for. -/
theorem Tracks.keep {w w' : TailRun} {admits : List UInt8 → Bool} {o : OpenFile}
    {read : List UInt8} (tracks : w.Tracks admits o read) (tail : w'.tail = w.tail)
    (lines : w'.lines = w.lines) (dropped : w'.dropped = w.dropped)
    (finished : w'.history.finished = w.history.finished) (position : w'.Position o read) :
    w'.Tracks admits o read := by
  refine ⟨?_, ?_, position, ?_, ?_, ?_⟩
  · rw [tail]
    exact tracks.opened
  · rw [tail]
    exact tracks.predicate
  · rw [tail]
    exact tracks.buffers
  · rw [lines, finished]
    exact tracks.lines
  · rw [dropped, finished]
    exact tracks.dropped

theorem tracks_append {w w' : TailRun} {admits : List UInt8 → Bool} {o : OpenFile} {read bytes : List UInt8}
    (tracks : w.Tracks admits o read) (stepped : w.step (.append bytes) = some w') : w'.Tracks admits o read := by
  obtain ⟨ino, path, stepped⟩ := Option.bind_eq_some_iff.mp stepped
  cases stepped
  refine tracks.keep rfl rfl rfl rfl ?_
  cases tracks.position with
  | here front unread leaving away atPath content live seen offset =>
    obtain rfl : o.ino = ino := Option.some.inj (atPath.symm.trans path)
    refine .here front (unread ++ bytes) leaving away path ?_ ?_ seen offset
    · change (w.fs.write o.ino _).content o.ino = _
      rw [write_same, content]
      simp
    · change w.history.live ++ bytes = _
      rw [live, List.append_assoc]
  | cut leaving away atPath content =>
    obtain rfl : o.ino = ino := Option.some.inj (atPath.symm.trans path)
    refine .cut leaving away path ?_
    change (w.fs.write o.ino _).content o.ino = _
    rw [write_same, content]
    rfl
  | moved front unread there leaving away atPath other live content offset =>
    obtain rfl : there = ino := Option.some.inj (atPath.symm.trans path)
    refine .moved front unread there leaving away path other ?_ ?_ offset
    · change (w.fs.write there _).content there = _
      rw [write_same, live]
      rfl
    · change (w.fs.write there _).content o.ino = _
      rw [write_other _ (Ne.symm other), content]

theorem tracks_appendMoved {w w' : TailRun} {admits : List UInt8 → Bool} {o : OpenFile} {read bytes : List UInt8}
    (tracks : w.Tracks admits o read) (stepped : w.step (.appendMoved bytes) = some w') :
    w'.Tracks admits o read := by
  obtain ⟨ino, here, stepped⟩ := Option.bind_eq_some_iff.mp stepped
  cases stepped
  cases tracks.position with
  | here front unread leaving away => exact absurd (away.symm.trans here) (by simp)
  | cut leaving away => exact absurd (away.symm.trans here) (by simp)
  | moved front unread there leaving away atPath other live content offset =>
    obtain rfl : o.ino = ino := Option.some.inj (away.symm.trans here)
    have grown : w.history.apply (.appendMoved bytes) =
        { w.history with leaving := .moved (read ++ unread ++ bytes) } := by
      simp [LogHistory.apply, leaving]
    refine tracks.keep rfl rfl rfl (by rw [grown]) ?_
    refine .moved front (unread ++ bytes) there ?_ away atPath other ?_ ?_ offset
    · rw [grown, List.append_assoc]
    · change (w.fs.write o.ino _).content there = _
      rw [write_other _ other, live, grown]
    · change (w.fs.write o.ino _).content o.ino = _
      rw [write_same, content]
      simp

theorem tracks_truncate {w w' : TailRun} {admits : List UInt8 → Bool} {o : OpenFile} {read : List UInt8}
    (tracks : w.Tracks admits o read) (stepped : w.step .truncate = some w') : w'.Tracks admits o read := by
  obtain ⟨ino, path, stepped⟩ := Option.bind_eq_some_iff.mp stepped
  cases stepped
  cases tracks.position with
  | here front unread leaving away atPath content live seen offset =>
    obtain rfl : o.ino = ino := Option.some.inj (atPath.symm.trans path)
    have left : w.history.apply .truncate =
        { w.history with leaving := .cut read, live := [], seen := [] } := by
      simp [LogHistory.apply, leaving, seen]
    refine tracks.keep rfl rfl rfl (by rw [left]) ?_
    refine .cut (by rw [left]) away path ?_
    rw [left]
    exact write_same _ _ _
  | cut leaving away atPath content =>
    obtain rfl : o.ino = ino := Option.some.inj (atPath.symm.trans path)
    have left : w.history.apply .truncate = { w.history with live := [], seen := [] } := by
      simp [LogHistory.apply, leaving]
    refine tracks.keep rfl rfl rfl (by rw [left]) ?_
    refine .cut (by rw [left]; exact leaving) away path ?_
    rw [left]
    exact write_same _ _ _
  | moved front unread there leaving away atPath other live content offset =>
    obtain rfl : there = ino := Option.some.inj (atPath.symm.trans path)
    have left : w.history.apply .truncate = { w.history with live := [], seen := [] } := by
      simp [LogHistory.apply, leaving]
    refine tracks.keep rfl rfl rfl (by rw [left]) ?_
    refine .moved front unread there (by rw [left]; exact leaving) away path other ?_ ?_ offset
    · rw [left]
      exact write_same _ _ _
    · change (w.fs.write there _).content o.ino = _
      rw [write_other _ (Ne.symm other), content]

theorem tracks_move {w w' : TailRun} {admits : List UInt8 → Bool} {o : OpenFile} {read : List UInt8} {ino : Nat}
    (tracks : w.Tracks admits o read) (stepped : w.step (.move ino) = some w') : w'.Tracks admits o read := by
  obtain ⟨old, path, stepped⟩ := Option.bind_eq_some_iff.mp stepped
  cases tracks.position with
  | here front unread leaving away atPath content live seen offset =>
    obtain rfl : o.ino = old := Option.some.inj (atPath.symm.trans path)
    simp only [leaving] at stepped
    split at stepped
    next fresh =>
      cases stepped
      have left : w.history.apply (.move ino) =
          { w.history with leaving := .moved (read ++ unread), live := [], seen := [] } := by
        simp [LogHistory.apply, leaving, live]
      refine tracks.keep rfl rfl rfl (by rw [left]) ?_
      refine .moved front unread ino (by rw [left]) ?_ rfl fresh.1 ?_ ?_ offset
      · simp [away]
      · rw [left]
        exact write_same _ _ _
      · change (w.fs.write ino _).content o.ino = _
        rw [write_other _ (Ne.symm fresh.1), content]
    next => cases stepped
  | cut leaving => simp [leaving] at stepped
  | moved front unread there leaving away atPath other live content offset =>
    simp only [leaving] at stepped
    split at stepped
    next fresh =>
      cases stepped
      have apart : o.ino ≠ ino := by simpa [tracks.opened] using fresh.2
      have left : w.history.apply (.move ino) = { w.history with live := [], seen := [] } := by
        simp [LogHistory.apply, leaving]
      refine tracks.keep rfl rfl rfl (by rw [left]) ?_
      refine .moved front unread ino (by rw [left]; exact leaving) ?_ rfl (Ne.symm apart) ?_ ?_ offset
      · simp [away]
      · rw [left]
        exact write_same _ _ _
      · change (w.fs.write ino _).content o.ino = _
        rw [write_other _ apart, content]
    next => cases stepped

theorem readStep_ok {w w' : TailRun} {now : Nat} {faults : IoFaults}
    (stepped : w.readStep now faults = some w') :
    (∀ last, w.tail.lastRead = some last → now - last < w.tail.maxGap) ∧ w.noticesCut = true ∧
      ∃ tail out, w.tail.readNew w.fs faults now = (tail, .ok out) ∧
        w' = ⟨w.fs, tail, none, w.history.apply (.read now faults), w.lines ++ out.lines,
          w.dropped + out.droppedPartials⟩ := by
  unfold readStep at stepped
  by_cases guards : (w.inTime now && w.noticesCut) = true
  · rw [if_pos guards] at stepped
    obtain ⟨short, noticed⟩ := Bool.and_eq_true_iff.mp guards
    refine ⟨?_, noticed, ?_⟩
    · intro last before
      simpa [inTime, before] using short
    · rcases result : w.tail.readNew w.fs faults now with ⟨tail, _ | out⟩
      · rw [result] at stepped
        cases stepped
      · rw [result] at stepped
        cases stepped
        exact ⟨tail, out, rfl, rfl⟩
  · rw [if_neg guards] at stepped
    cases stepped

/-- The end of a read, from a file of which `read` has been read before. -/
theorem readRest_more {followed t' : LogTail} {fs : FileSystem} {faults : IoFaults}
    {early out : TailRead} {o : OpenFile} {read unread : List UInt8}
    (opened : followed.opened = some o)
    (buffers : Buffers (Delimited.cut newline read).2 followed.buffer followed.discarding)
    (bytes : (fs.content o.ino).drop o.offset = unread)
    (ok : followed.readRest fs faults early = (t', .ok out)) :
    t'.opened = some ⟨o.ino, o.offset + unread.length⟩ ∧ t'.admits = followed.admits ∧
      Buffers (Delimited.cut newline (read ++ unread)).2 t'.buffer t'.discarding ∧
      ∃ more, out.lines = early.lines ++ more ∧
        linesIn followed.admits (read ++ unread) = linesIn followed.admits read ++ more ∧
        out.droppedPartials + lostIn read = early.droppedPartials + lostIn (read ++ unread) := by
  obtain ⟨s, split, after, lines, dropped⟩ := LogTail.readRest_ok opened ok
  rw [bytes] at split after
  obtain ⟨more, lost, kept⟩ := splitLines_more followed.admits buffers unread
  rw [← split] at more lost kept
  rw [after]
  refine ⟨rfl, rfl, kept, s.lines, lines, more, ?_⟩
  omega

/-- A read that starts a file from its beginning, once the generation before it is accounted
for. -/
theorem tracks_restart {fs : FileSystem} {followed t' : LogTail} {faults : IoFaults}
    {early out : TailRead} {ino dropped : Nat} {history : LogHistory} {lines : List String}
    {admits : List UInt8 → Bool} (opened : followed.opened = some ⟨ino, 0⟩) (empty : followed.buffer = [])
    (kept : followed.discarding = false) (path : fs.path = some ino)
    (content : fs.content ino = history.live) (leaving : history.leaving = .here)
    (seen : history.seen = history.live)
    (taken : lines ++ early.lines = history.finished.flatMap (linesIn admits))
    (lost : dropped + early.droppedPartials = (history.finished.map lostBehind).sum)
    (ok : followed.readRest fs faults early = (t', .ok out)) (predicate : followed.admits = admits) :
    (TailRun.mk fs t' none history (lines ++ out.lines) (dropped + out.droppedPartials)).Tracks admits
      ⟨ino, history.live.length⟩ history.live := by
  have buffers : Buffers (Delimited.cut newline []).2 followed.buffer followed.discarding := by
    rw [empty, kept]
    exact ⟨rfl, rfl⟩
  have all : (fs.content ino).drop 0 = history.live := content
  obtain ⟨after, same, still, more, got, whole, counted⟩ := readRest_more opened buffers all ok
  rw [List.nil_append] at still whole counted
  rw [predicate] at same whole
  refine ⟨?_, same, ?_, still, ?_, ?_⟩
  · rw [after, Nat.zero_add]
  · exact .here [] [] leaving rfl path (by simp [content]) (by simp) seen (by simp)
  · change lines ++ out.lines = history.finished.flatMap (linesIn admits) ++ linesIn admits _
    rw [← taken, got, whole]
    simp [linesIn, Delimited.cut, admittedLines]
  · change dropped + out.droppedPartials = (history.finished.map lostBehind).sum + _
    have nothing : lostIn [] = 0 := rfl
    omega

section

variable {w : TailRun} {admits : List UInt8 → Bool} {o : OpenFile} {read front unread : List UInt8}
  {now : Nat} {faults : IoFaults} {tail : LogTail} {out : TailRead}
  (tracks : w.Tracks admits o read)
  (inTime : ∀ last, w.tail.lastRead = some last → now - last < w.tail.maxGap)
  (ok : w.tail.readNew w.fs faults now = (tail, .ok out))

include tracks inTime ok

/-- The file at the path is read on from where the last read ended. -/
theorem tracks_readHere (leaving : w.history.leaving = .here) (path : w.fs.path = some o.ino)
    (content : w.fs.content o.ino = front ++ (read ++ unread))
    (live : w.history.live = read ++ unread) (offset : o.offset = (front ++ read).length) :
    ∃ o', (TailRun.mk w.fs tail none (w.history.apply (.read now faults)) (w.lines ++ out.lines)
      (w.dropped + out.droppedPartials)).Tracks admits o' w.history.live := by
  obtain ⟨opened, predicate, _, buffers, lines, dropped⟩ := tracks
  have held : { w.tail with lastRead := some now }.opened = some o := opened
  have history : w.history.apply (.read now faults) =
      ⟨w.history.finished, .here, w.history.live, w.history.live⟩ := by
    simp [LogHistory.apply, leaving, Leaving.left]
  obtain ⟨followed, early, follow, rest⟩ := LogTail.readNew_ok path inTime ok
  rcases LogTail.follow_ok held path follow with
    ⟨_, _, rfl, rfl⟩ | ⟨_, short, _⟩ | ⟨_, other, _⟩
  · have behind : (w.fs.content o.ino).drop o.offset = unread := by
      rw [content, offset, ← List.append_assoc, List.drop_left]
    obtain ⟨after, same, kept, more, got, whole, lost⟩ := readRest_more held buffers behind rest
    change _ = w.tail.admits at same
    change linesIn w.tail.admits _ = linesIn w.tail.admits _ ++ _ at whole
    rw [predicate] at same whole
    refine ⟨⟨o.ino, o.offset + unread.length⟩, after, same, ?_, ?_, ?_, ?_⟩
    · rw [history]
      refine .here front [] rfl rfl path ?_ (List.append_nil _).symm rfl ?_
      · rw [List.append_nil, live]
        exact content
      · rw [live, offset]
        simp [Nat.add_assoc]
    · rw [live]
      exact kept
    · rw [history, live]
      change w.lines ++ out.lines = _ ++ linesIn admits _
      rw [whole, lines, got, List.append_assoc]
      rfl
    · rw [history, live]
      change w.dropped + out.droppedPartials = (w.history.finished.map lostBehind).sum + _
      change _ = 0 + lostIn (read ++ unread) at lost
      omega
  · rw [content, offset] at short
    simp only [List.length_append] at short
    omega
  · exact absurd rfl other

/-- A file found cut is read again from its beginning. -/
theorem tracks_readCut (leaving : w.history.leaving = .cut read) (path : w.fs.path = some o.ino)
    (content : w.fs.content o.ino = w.history.live)
    (short : (w.fs.content o.ino).length < o.offset) :
    ∃ o', (TailRun.mk w.fs tail none (w.history.apply (.read now faults)) (w.lines ++ out.lines)
      (w.dropped + out.droppedPartials)).Tracks admits o' w.history.live := by
  obtain ⟨opened, predicate, _, buffers, lines, dropped⟩ := tracks
  have held : { w.tail with lastRead := some now }.opened = some o := opened
  have history : w.history.apply (.read now faults) =
      ⟨w.history.finished ++ [read], .here, w.history.live, w.history.live⟩ := by
    simp [LogHistory.apply, leaving, Leaving.left]
  obtain ⟨followed, early, follow, rest⟩ := LogTail.readNew_ok path inTime ok
  rcases LogTail.follow_ok held path follow with
    ⟨_, long, _⟩ | ⟨_, _, rfl, rfl⟩ | ⟨_, other, _⟩
  · exact absurd short (Nat.not_lt_of_le long)
  · have behind := lostBehind_eq buffers
    refine ⟨⟨o.ino, w.history.live.length⟩, ?_⟩
    rw [history]
    refine tracks_restart rfl rfl rfl path content rfl rfl ?_ ?_ rest predicate
    · change w.lines ++ [] = _
      rw [lines, List.append_nil]
      simp
    · change w.dropped + (if w.tail.buffer = [] then 0 else 1) = _
      rw [List.map_append, List.sum_append]
      simp only [List.map_cons, List.map_nil, List.sum_cons, List.sum_nil]
      omega
  · exact absurd rfl other

/-- A file that moved off the path is read to its end, and the one at the path from its
beginning. -/
theorem tracks_readMoved {ino : Nat} (leaving : w.history.leaving = .moved (read ++ unread))
    (path : w.fs.path = some ino) (other : ino ≠ o.ino) (live : w.fs.content ino = w.history.live)
    (content : w.fs.content o.ino = front ++ (read ++ unread))
    (offset : o.offset = (front ++ read).length) :
    ∃ o', (TailRun.mk w.fs tail none (w.history.apply (.read now faults)) (w.lines ++ out.lines)
      (w.dropped + out.droppedPartials)).Tracks admits o' w.history.live := by
  obtain ⟨opened, predicate, _, buffers, lines, dropped⟩ := tracks
  have held : { w.tail with lastRead := some now }.opened = some o := opened
  have history : w.history.apply (.read now faults) =
      ⟨w.history.finished ++ [read ++ unread], .here, w.history.live, w.history.live⟩ := by
    simp [LogHistory.apply, leaving, Leaving.left]
  obtain ⟨followed, early, follow, rest⟩ := LogTail.readNew_ok path inTime ok
  rcases LogTail.follow_ok held path follow with
    ⟨same, _⟩ | ⟨same, _⟩ | ⟨drained, _, split, rfl, rfl⟩
  · exact absurd same.symm other
  · exact absurd same.symm other
  · have behind : (w.fs.content o.ino).drop o.offset = unread := by
      rw [content, offset, ← List.append_assoc, List.drop_left]
    change drained = splitLines w.tail.admits w.tail.discarding (w.tail.buffer ++ _) at split
    rw [behind] at split
    obtain ⟨more, lost, kept⟩ := splitLines_more w.tail.admits buffers unread
    rw [← split] at more lost kept
    have left := lostBehind_eq kept
    refine ⟨⟨ino, w.history.live.length⟩, ?_⟩
    rw [history]
    refine tracks_restart rfl rfl rfl path live rfl rfl ?_ ?_ rest predicate
    · change w.lines ++ drained.lines = List.flatMap (linesIn admits) _
      rw [predicate] at more
      rw [lines, List.append_assoc, ← more]
      simp
    · change w.dropped + (if drained.buffer = [] then drained.dropped else drained.dropped + 1) = _
      rw [List.map_append, List.sum_append]
      simp only [List.map_cons, List.map_nil, List.sum_cons, List.sum_nil]
      by_cases empty : drained.buffer = []
      · rw [if_pos empty] at left ⊢
        omega
      · rw [if_neg empty] at left ⊢
        omega

end

theorem tracks_read {w w' : TailRun} {admits : List UInt8 → Bool} {o : OpenFile} {read : List UInt8} {now : Nat}
    {faults : IoFaults} (tracks : w.Tracks admits o read) (stepped : w.readStep now faults = some w') :
    ∃ o', w'.Tracks admits o' w'.history.live := by
  obtain ⟨inTime, noticed, tail, out, ok, rfl⟩ := readStep_ok stepped
  have same : (w.history.apply (.read now faults)).live = w.history.live := rfl
  rw [same]
  cases tracks.position with
  | here front unread leaving away path content live seen offset =>
    exact tracks_readHere tracks inTime ok leaving path content live offset
  | cut leaving away path content =>
    have short : (w.fs.content o.ino).length < o.offset := by
      simpa [noticesCut, leaving, path, tracks.opened] using noticed
    exact tracks_readCut tracks inTime ok leaving path content short
  | moved front unread ino leaving away path other live content offset =>
    exact tracks_readMoved tracks inTime ok leaving path other live content offset

theorem tracks_step {w w' : TailRun} {admits : List UInt8 → Bool} {o : OpenFile} {read : List UInt8} {label : LogStep}
    (stepped : w.step label = some w') (tracks : w.Tracks admits o read) :
    ∃ o' read', w'.Tracks admits o' read' := by
  cases label with
  | append bytes => exact ⟨o, read, tracks_append tracks stepped⟩
  | appendMoved bytes => exact ⟨o, read, tracks_appendMoved tracks stepped⟩
  | truncate => exact ⟨o, read, tracks_truncate tracks stepped⟩
  | move ino => exact ⟨o, read, tracks_move tracks stepped⟩
  | read now faults =>
    obtain ⟨o', after⟩ := tracks_read tracks stepped
    exact ⟨o', _, after⟩

theorem step_history {w w' : TailRun} {label : LogStep} (stepped : w.step label = some w') :
    w'.history = w.history.apply label := by
  cases label with
  | append | appendMoved | truncate =>
    obtain ⟨ino, _, stepped⟩ := Option.bind_eq_some_iff.mp stepped
    cases stepped
    rfl
  | move ino =>
    obtain ⟨old, _, stepped⟩ := Option.bind_eq_some_iff.mp stepped
    split at stepped
    · cases stepped
    · split at stepped
      · cases stepped
        rfl
      · cases stepped
  | read now faults =>
    obtain ⟨_, _, tail, out, _, rfl⟩ := readStep_ok stepped
    rfl

theorem run_history {w w' : TailRun} {labels : List LogStep}
    (ran : Runs.runSteps step w labels = some w') :
    w'.history = labels.foldl LogHistory.apply w.history := by
  induction labels generalizing w with
  | nil =>
    cases ran
    rfl
  | cons label labels ih =>
    obtain ⟨next, stepped, rest⟩ := Runs.runSteps_cons_eq_some.mp ran
    rw [ih rest, step_history stepped]
    rfl

/-- A run that ends with a read has returned every line of every generation and counted what
they lost. -/
theorem run_lines {maxGap ino now : Nat} {admits : List UInt8 → Bool} {initial : List UInt8}
    {faults : IoFaults} {w : TailRun} (labels : List LogStep)
    (ran : Runs.runSteps step (start maxGap admits ino initial) (labels ++ [.read now faults]) =
      some w) :
    w.lines = (LogHistory.run (labels ++ [.read now faults])).lines admits ∧
      w.dropped = (LogHistory.run (labels ++ [.read now faults])).lost := by
  obtain ⟨before, first, last⟩ := Runs.runSteps_append_eq_some.mp ran
  obtain ⟨_, stepped, done⟩ := Runs.runSteps_cons_eq_some.mp last
  cases done
  obtain ⟨o, read, tracks⟩ := Runs.runSteps_invariant
    (P := fun w : TailRun => ∃ o read, w.Tracks admits o read)
    (fun _ _ _ stepped held => tracks_step stepped held.choose_spec.choose_spec) first
    ⟨_, _, tracks_start maxGap admits ino initial⟩
  obtain ⟨o', after⟩ := tracks_read tracks stepped
  have history := run_history ran
  change w.history = LogHistory.run (labels ++ [.read now faults]) at history
  rw [← history]
  exact ⟨after.lines, after.dropped⟩

end TailRun

namespace LogHistory

/-- Some read or move comes before the next truncation. -/
def SeenBeforeCut : List LogStep → Prop
  | [] => False
  | .read .. :: _ => True
  | .move _ :: _ => True
  | .truncate :: _ => False
  | _ :: rest => SeenBeforeCut rest

/-- What the last read saw of the live bytes is forgotten at the next read or move. -/
theorem foldl_apply_forgets {labels : List LogStep} (seen : SeenBeforeCut labels)
    (h : LogHistory) (other : List UInt8) :
    labels.foldl apply { h with seen := other } = labels.foldl apply h := by
  induction labels generalizing h with
  | nil => cases seen
  | cons label labels ih =>
    cases label with
    | append bytes => exact ih seen (h.apply (.append bytes))
    | appendMoved bytes =>
      obtain ⟨finished, leaving, live, before⟩ := h
      cases leaving with
      | here | cut => exact ih seen _
      | moved left => exact ih seen ⟨finished, .moved (left ++ bytes), live, before⟩
    | truncate => cases seen
    | move ino =>
      obtain ⟨finished, leaving, live, before⟩ := h
      cases leaving <;> rfl
    | read now faults => rfl

theorem run_read_append (before : List LogStep) {after : List LogStep}
    (seen : SeenBeforeCut after) (bytes : List UInt8) (now : Nat) (faults : IoFaults) :
    run (before ++ .append bytes :: .read now faults :: after) =
      run (before ++ .read now faults :: .append bytes :: after) := by
  unfold run
  rw [List.foldl_append, List.foldl_append, List.foldl_cons, List.foldl_cons, List.foldl_cons,
    List.foldl_cons]
  generalize before.foldl apply start = h
  exact (foldl_apply_forgets seen ((h.apply (.append bytes)).apply (.read now faults)) h.live).symm

end LogHistory

/-- Over any run of writes, rotations and successful reads that ends with a read, the tail has
returned every admitted line of every generation once and in order and counted what was lost,
and it does not matter whether a read came before or after an append. -/
theorem log_tail_exact (maxGap ino : Nat) (admits : List UInt8 → Bool) (initial : List UInt8) :
    (∀ labels now faults w,
      Runs.runSteps TailRun.step (.start maxGap admits ino initial)
        (labels ++ [.read now faults]) = some w →
      w.lines = (LogHistory.run (labels ++ [.read now faults])).lines admits ∧
        w.dropped = (LogHistory.run (labels ++ [.read now faults])).lost) ∧
    (∀ before after bytes now faults last again w w',
      LogHistory.SeenBeforeCut (after ++ [.read last again]) →
      Runs.runSteps TailRun.step (.start maxGap admits ino initial)
        (before ++ .append bytes :: .read now faults :: (after ++ [.read last again])) = some w →
      Runs.runSteps TailRun.step (.start maxGap admits ino initial)
        (before ++ .read now faults :: .append bytes :: (after ++ [.read last again])) = some w' →
      w.lines = w'.lines ∧ w.dropped = w'.dropped) := by
  refine ⟨fun labels now faults w ran => TailRun.run_lines labels ran, ?_⟩
  intro before after bytes now faults last again w w' seen ran ran'
  have same := LogHistory.run_read_append before seen bytes now faults
  have first := TailRun.run_lines (before ++ .append bytes :: .read now faults :: after)
    (by simpa using ran)
  have second := TailRun.run_lines (before ++ .read now faults :: .append bytes :: after)
    (by simpa using ran')
  simp only [List.append_assoc, List.cons_append] at first second
  rw [first.1, first.2, second.1, second.2, same]
  exact ⟨rfl, rfl⟩

/-- Two moves between two reads: the file between them is opened by no read. -/
def twoMoves : List LogStep :=
  [.append [0x61, 0x0A], .read 0 .none, .append [0x62, 0x0A], .move 2, .append [0x63, 0x0A],
    .move 3, .append [0x64, 0x0A], .read 15 .none]

theorem log_tail_loses_the_middle_file :
    (Runs.runSteps TailRun.step (.start 60 (fun _ => true) 1 []) twoMoves).map TailRun.lines =
        some ["a", "b", "d"] ∧
      [[0x61, 0x0A, 0x62, 0x0A], [0x63, 0x0A], [0x64, 0x0A]].flatMap (linesIn fun _ => true) =
        ["a", "b", "c", "d"] := by
  constructor
  · decide +kernel
  · decide +kernel

theorem log_tail_exact_truncated :
    (∃ w, Runs.runSteps TailRun.step (.start 60 (fun _ => true) 1 [])
        ([.append [0x61, 0x62], .read 0 .none, .append [0x63, 0x0A, 0x78], .read 15 .none,
          .truncate, .append [0x64, 0x0A]] ++ [.read 30 .none]) = some w ∧
      w.lines = (LogHistory.run ([.append [0x61, 0x62], .read 0 .none,
        .append [0x63, 0x0A, 0x78], .read 15 .none, .truncate, .append [0x64, 0x0A]] ++
          [.read 30 .none])).lines (fun _ => true)) ∧
    ∃ w w', Runs.runSteps TailRun.step (.start 60 (fun _ => true) 1 [])
        ([] ++ .append [0x61, 0x0A] :: .read 0 .none :: ([] ++ [.read 15 .none])) = some w ∧
      Runs.runSteps TailRun.step (.start 60 (fun _ => true) 1 [])
        ([] ++ .read 0 .none :: .append [0x61, 0x0A] :: ([] ++ [.read 15 .none])) = some w' ∧
      w.lines = w'.lines := by
  have sound := log_tail_exact 60 1 (fun _ => true) []
  refine ⟨⟨_, rfl, (sound.1 _ 30 .none _ rfl).1⟩, _, _, rfl, rfl, ?_⟩
  exact (sound.2 [] [] [0x61, 0x0A] 0 .none 15 .none _ _ trivial rfl rfl).1

end NetObserver
