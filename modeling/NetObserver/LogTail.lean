import NetObserver.Delimited
import NetObserver.Machine
import NetObserver.Utf8Lossy

/-! The tail over a rotated log: what one read takes from the file, and what it leaves buffered. -/

namespace NetObserver

def partialCap : Nat := 1048576

def newline : UInt8 := 0x0A

structure FileSystem where
  path : Option Nat
  content : Nat → List UInt8

/-- The operation of a read that fails, with its error: `none` everywhere where all go well. -/
structure IoFaults where
  metadata : Option String
  openPath : Option String
  openMetadata : Option String
  seekEnd : Option String
  drainSeek : Option String
  drainRead : Option String
  restart : Option String
  seek : Option String
  readToEnd : Option String

def IoFaults.none : IoFaults := ⟨.none, .none, .none, .none, .none, .none, .none, .none, .none⟩

structure OpenFile where
  ino : Nat
  offset : Nat
deriving DecidableEq

/-- What one read produced; `reattached` holds the gap and the bytes skipped. -/
structure TailRead where
  lines : List String
  reattached : Option (Nat × Nat)
  droppedPartials : Nat
  rotated : Bool
deriving DecidableEq

def TailRead.default : TailRead := ⟨[], none, 0, false⟩

structure LogTail where
  maxGap : Nat
  admits : List UInt8 → Bool
  opened : Option OpenFile
  buffer : List UInt8
  discarding : Bool
  rotations : Nat
  lastRead : Option Nat

structure Split where
  lines : List String
  buffer : List UInt8
  discarding : Bool
  dropped : Nat

/-- One complete line: the end of a run already dropped, too long, or judged by `admits`. -/
def Split.take (admits : List UInt8 → Bool) (s : Split) (raw : List UInt8) : Split :=
  if s.discarding then { s with discarding := false }
  else if partialCap < raw.length then { s with dropped := s.dropped + 1 }
  else if admits raw then { s with lines := s.lines ++ [Utf8Lossy.fromUtf8Lossy raw] }
  else s

/-- What is left behind the last newline: inside a dropped run, past the cap, or kept. -/
def Split.finish (s : Split) (rest : List UInt8) : Split :=
  if s.discarding then { s with buffer := [] }
  else if partialCap < rest.length then
    { s with buffer := [], discarding := true, dropped := s.dropped + 1 }
  else { s with buffer := rest }

def splitLines (admits : List UInt8 → Bool) (discarding : Bool) (bytes : List UInt8) : Split :=
  let (complete, rest) := Delimited.cut newline bytes
  (complete.foldl (Split.take admits) ⟨[], [], discarding, 0⟩).finish rest

namespace LogTail

def reopen (fs : FileSystem) (faults : IoFaults) (atEnd : Bool) : Except String OpenFile := do
  let some ino := fs.path | throw "NotFound"
  if let some e := faults.openPath then throw e
  if let some e := faults.openMetadata then throw e
  if atEnd then
    if let some e := faults.seekEnd then throw e
    return ⟨ino, (fs.content ino).length⟩
  return ⟨ino, 0⟩

def openAtEnd (fs : FileSystem) (faults : IoFaults) (maxGap : Nat) (admits : List UInt8 → Bool) :
    LogTail where
  maxGap := maxGap
  admits := admits
  opened := (reopen fs faults true).toOption
  buffer := []
  discarding := false
  rotations := 0
  lastRead := none

/-- The backlog of a gap the ticks did not cover, when the same file only grew. -/
def backlog (t : LogTail) (gap : Option Nat) (ino len : Nat) : Option (Nat × Nat) :=
  match gap, t.opened with
  | some gap, some o =>
    if t.maxGap ≤ gap ∧ o.ino = ino ∧ o.offset ≤ len then some (gap, len - o.offset) else none
  | _, _ => none

/-- The file the rest of the read is from: a new one, the one moved in, or the one held. -/
def follow (t : LogTail) (fs : FileSystem) (faults : IoFaults) (ino len : Nat) :
    Except String (LogTail × TailRead) := do
  match t.opened with
  | none =>
    let o ← reopen fs faults false
    return ({ t with opened := some o }, .default)
  | some o =>
    if o.ino ≠ ino then
      if let some e := faults.drainSeek then throw e
      if let some e := faults.drainRead then throw e
      let drained := splitLines t.admits t.discarding
        (t.buffer ++ (fs.content o.ino).drop o.offset)
      let dropped := if drained.buffer = [] then drained.dropped else drained.dropped + 1
      let followed ← reopen fs faults false
      return ({ t with
          opened := some followed
          buffer := []
          discarding := false
          rotations := Machine.satAddU32 t.rotations 1 },
        ⟨drained.lines, none, dropped, true⟩)
    else if len < o.offset then
      if let some e := faults.restart then throw e
      return ({ t with
          opened := some ⟨o.ino, 0⟩
          buffer := []
          discarding := false
          rotations := Machine.satAddU32 t.rotations 1 },
        ⟨[], none, if t.buffer = [] then 0 else 1, true⟩)
    else return (t, .default)

/-- The bytes past the offset. Nothing is committed when they cannot be read. -/
def readRest (t : LogTail) (fs : FileSystem) (faults : IoFaults) (out : TailRead) :
    LogTail × Except String TailRead :=
  match t.opened, faults.seek, faults.readToEnd with
  | some o, none, none =>
    let bytes := (fs.content o.ino).drop o.offset
    let s := splitLines t.admits t.discarding (t.buffer ++ bytes)
    ({ t with
        opened := some ⟨o.ino, o.offset + bytes.length⟩
        buffer := s.buffer
        discarding := s.discarding },
      .ok { out with
        lines := out.lines ++ s.lines
        droppedPartials := out.droppedPartials + s.dropped })
  | some _, some e, _ => (t, .error e)
  | some _, none, some e => (t, .error e)
  | none, _, _ => (t, .error "opened above")

def readNew (t : LogTail) (fs : FileSystem) (faults : IoFaults) (now : Nat) :
    LogTail × Except String TailRead :=
  let gap := t.lastRead.map fun last => now - last
  let t := { t with lastRead := some now }
  match fs.path, faults.metadata with
  | none, _ => (t, .error "NotFound")
  | some _, some e => (t, .error e)
  | some ino, none =>
    let len := (fs.content ino).length
    match t.backlog gap ino len with
    | some skipped =>
      match reopen fs faults true with
      | .error e => (t, .error e)
      | .ok o =>
        ({ t with opened := some o, buffer := [], discarding := false },
          .ok { TailRead.default with reattached := some skipped })
    | none =>
      match t.follow fs faults ino len with
      | .error e => (t, .error e)
      | .ok (followed, out) => followed.readRest fs faults out

@[simp] theorem throw_eq_error {β : Type} (e : String) :
    (throw e : Except String β) = .error e := rfl

/-- The file at the path is held from its start or at its end, or a fault stopped it. -/
theorem reopen_cases {fs : FileSystem} {ino : Nat} (path : fs.path = some ino) (faults : IoFaults)
    (atEnd : Bool) :
    (reopen fs faults atEnd = .ok ⟨ino, if atEnd then (fs.content ino).length else 0⟩ ∧
        faults.openPath = none ∧ faults.openMetadata = none) ∨
      (atEnd = false → faults.openPath ≠ none ∨ faults.openMetadata ≠ none) ∧
        ∃ e, reopen fs faults atEnd = .error e := by
  unfold reopen
  rw [path]
  cases openPath : faults.openPath with
  | some e => exact .inr ⟨fun _ => .inl (by simp), e, by simp [bind, Except.bind]⟩
  | none =>
    cases openMetadata : faults.openMetadata with
    | some e => exact .inr ⟨fun _ => .inr (by simp), e, by simp [bind, Except.bind]⟩
    | none =>
      cases atEnd with
      | false => exact .inl ⟨rfl, rfl, rfl⟩
      | true =>
        cases seekEnd : faults.seekEnd with
        | some e => exact .inr ⟨by simp, e, by simp [bind, Except.bind]⟩
        | none => exact .inl ⟨rfl, rfl, rfl⟩

theorem reopen_ok {fs : FileSystem} {faults : IoFaults} {atEnd : Bool} {o : OpenFile} {ino : Nat}
    (path : fs.path = some ino) (ok : reopen fs faults atEnd = .ok o) :
    o = ⟨ino, if atEnd then (fs.content ino).length else 0⟩ := by
  rcases reopen_cases path faults atEnd with ⟨opened, _⟩ | ⟨_, e, failed⟩
  · rw [opened] at ok
    exact (Except.ok.inj ok).symm
  · rw [failed] at ok
    cases ok

/-- Where a read that succeeds goes on from: the file held, the same one from its start, or the
new one at the path once the old one is drained. -/
theorem follow_ok {t followed : LogTail} {fs : FileSystem} {faults : IoFaults} {ino len : Nat}
    {o : OpenFile} {out : TailRead} (opened : t.opened = some o) (path : fs.path = some ino)
    (ok : t.follow fs faults ino len = .ok (followed, out)) :
    (o.ino = ino ∧ o.offset ≤ len ∧ followed = t ∧ out = .default) ∨
    (o.ino = ino ∧ len < o.offset ∧
      followed = { t with
        opened := some ⟨ino, 0⟩
        buffer := []
        discarding := false
        rotations := Machine.satAddU32 t.rotations 1 } ∧
      out = ⟨[], none, if t.buffer = [] then 0 else 1, true⟩) ∨
    (∃ drained, o.ino ≠ ino ∧
      drained = splitLines t.admits t.discarding (t.buffer ++ (fs.content o.ino).drop o.offset) ∧
      followed = { t with
        opened := some ⟨ino, 0⟩
        buffer := []
        discarding := false
        rotations := Machine.satAddU32 t.rotations 1 } ∧
      out = ⟨drained.lines, none,
        if drained.buffer = [] then drained.dropped else drained.dropped + 1, true⟩) := by
  unfold follow at ok
  simp only [opened] at ok
  by_cases same : o.ino = ino
  · by_cases short : len < o.offset
    · cases restart : faults.restart with
      | some e => simp [same, short, restart, bind, Except.bind] at ok
      | none =>
        simp [same, short, restart, pure, Except.pure] at ok
        exact .inr (.inl ⟨same, short, ok.1.symm, ok.2.symm⟩)
    · simp [same, short, pure, Except.pure] at ok
      exact .inl ⟨same, Nat.le_of_not_lt short, ok.1.symm, ok.2.symm⟩
  · cases drainSeek : faults.drainSeek with
    | some e => simp [same, drainSeek, bind, Except.bind] at ok
    | none =>
      cases drainRead : faults.drainRead with
      | some e =>
        simp [same, drainSeek, drainRead, bind, Except.bind] at ok
      | none =>
        cases again : reopen fs faults false with
        | error e =>
          simp [same, drainSeek, drainRead, again, bind, Except.bind] at ok
        | ok next =>
          simp [same, drainSeek, drainRead, again, bind, Except.bind, pure, Except.pure] at ok
          have atStart : next = ⟨ino, 0⟩ := reopen_ok path again
          refine .inr (.inr ⟨_, same, rfl, ?_, ok.2.symm⟩)
          rw [← ok.1, atStart]

theorem readRest_ok {t t' : LogTail} {fs : FileSystem} {faults : IoFaults} {o : OpenFile}
    {out out' : TailRead} (opened : t.opened = some o)
    (ok : t.readRest fs faults out = (t', .ok out')) :
    ∃ s, s = splitLines t.admits t.discarding (t.buffer ++ (fs.content o.ino).drop o.offset) ∧
      t' = { t with
        opened := some ⟨o.ino, o.offset + ((fs.content o.ino).drop o.offset).length⟩
        buffer := s.buffer
        discarding := s.discarding } ∧
      out'.lines = out.lines ++ s.lines ∧
      out'.droppedPartials = out.droppedPartials + s.dropped := by
  unfold readRest at ok
  rw [opened] at ok
  cases seek : faults.seek with
  | some e =>
    rw [seek] at ok
    cases ok
  | none =>
    cases readToEnd : faults.readToEnd with
    | some e =>
      rw [seek, readToEnd] at ok
      cases ok
    | none =>
      rw [seek, readToEnd] at ok
      cases ok
      exact ⟨_, rfl, rfl, rfl, rfl⟩

/-- A read that succeeds within the gap goes on from the file it holds. -/
theorem readNew_ok {t t' : LogTail} {fs : FileSystem} {faults : IoFaults} {now ino : Nat}
    {out : TailRead} (path : fs.path = some ino)
    (inTime : ∀ last, t.lastRead = some last → now - last < t.maxGap)
    (ok : t.readNew fs faults now = (t', .ok out)) :
    ∃ followed early,
      { t with lastRead := some now }.follow fs faults ino (fs.content ino).length =
        .ok (followed, early) ∧
      followed.readRest fs faults early = (t', .ok out) := by
  unfold readNew at ok
  rw [path] at ok
  cases metadata : faults.metadata with
  | some e =>
    rw [metadata] at ok
    cases ok
  | none =>
    have noBacklog : { t with lastRead := some now }.backlog (t.lastRead.map fun last => now - last)
        ino (fs.content ino).length = none := by
      unfold backlog
      cases last : t.lastRead with
      | none => rfl
      | some before =>
        have short := inTime before last
        cases opened : t.opened with
        | none => rfl
        | some o =>
          refine if_neg ?_
          rintro ⟨long, -⟩
          exact absurd short (Nat.not_lt_of_le long)
    simp only [metadata, noBacklog] at ok
    cases followed : { t with lastRead := some now }.follow fs faults ino (fs.content ino).length with
    | error e =>
      rw [followed] at ok
      cases ok
    | ok pair =>
      rw [followed] at ok
      exact ⟨pair.1, pair.2, rfl, ok⟩

end LogTail

end NetObserver
