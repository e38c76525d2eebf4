import NetObserver.LogTail

/-! A read of the log that fails, and what the next one makes good of it. -/

namespace NetObserver

/-- How many intervals of silence make the tail skip a backlog. -/
def reattachIntervals : Nat := 4

/-- The same lines and losses, and the same decisions to follow a rotation or to re-attach. -/
structure TailRead.Same (a b : TailRead) : Prop where
  lines : a.lines = b.lines
  dropped : a.droppedPartials = b.droppedPartials
  rotated : a.rotated = b.rotated
  reattached : a.reattached.isSome = b.reattached.isSome

namespace LogTail

/-- What a read at `now` failed to return, a read at `later` that succeeds over the same files
returns. -/
def Retried (t : LogTail) (fs : FileSystem) (faults : IoFaults) (now later : Nat) : Prop :=
  ∀ again kept whole out ideal,
    (t.readNew fs faults now).1.readNew fs again later = (kept, .ok out) →
    t.readNew fs .none now = (whole, .ok ideal) → out.Same ideal

/-- The file only grew over a gap the ticks did not cover. -/
def Reattaches (t : LogTail) (fs : FileSystem) (now : Nat) : Prop :=
  ∃ ino, fs.path = some ino ∧
    (t.backlog (t.lastRead.map fun last => now - last) ino (fs.content ino).length).isSome

/-- The read gets as far as a rotation: another file at the path, drained and reopened, or the
same one cut and started over. -/
def FollowsRotation (t : LogTail) (fs : FileSystem) (faults : IoFaults) : Prop :=
  faults.metadata = none ∧ ∃ ino o, fs.path = some ino ∧ t.opened = some o ∧
    (o.ino ≠ ino ∧ faults.drainSeek = none ∧ faults.drainRead = none ∧
        faults.openPath = none ∧ faults.openMetadata = none ∨
      o.ino = ino ∧ (fs.content ino).length < o.offset ∧ faults.restart = none)

variable {t : LogTail} {fs : FileSystem} {faults : IoFaults} {now ino : Nat}

/-- Where a read goes on from when every operation succeeds. -/
def followed (t : LogTail) (fs : FileSystem) (ino : Nat) : LogTail × TailRead :=
  let restarted := { t with
    opened := some ⟨ino, 0⟩
    buffer := []
    discarding := false
    rotations := Machine.satAddU32 t.rotations 1 }
  match t.opened with
  | none => ({ t with opened := some ⟨ino, 0⟩ }, .default)
  | some o =>
    if o.ino ≠ ino then
      let drained := splitLines t.admits t.discarding
        (t.buffer ++ (fs.content o.ino).drop o.offset)
      (restarted, ⟨drained.lines, none,
        if drained.buffer = [] then drained.dropped else drained.dropped + 1, true⟩)
    else if (fs.content ino).length < o.offset then (restarted, ⟨[], none, if t.buffer = [] then 0 else 1, true⟩)
    else (t, .default)

/-- The rest of the read, once nothing fails and nothing is skipped. -/
def readOn (t : LogTail) (fs : FileSystem) (ino : Nat) : LogTail × Except String TailRead :=
  (t.followed fs ino).1.readRest fs .none (t.followed fs ino).2

/-- The file the rest is read from, or the fault that left the tail where it was. -/
theorem follow_cases (path : fs.path = some ino) (metadata : faults.metadata = none) :
    t.follow fs faults ino (fs.content ino).length = .ok (t.followed fs ino) ∧
        ((t.followed fs ino).2.rotated = true ↔ t.FollowsRotation fs faults) ∨
      ¬ t.FollowsRotation fs faults ∧
        ∃ e, t.follow fs faults ino (fs.content ino).length = .error e := by
  have reopened := reopen_cases path faults false
  unfold follow followed
  cases opened : t.opened with
  | none =>
    have apart : ¬ t.FollowsRotation fs faults := by
      rintro ⟨_, _, _, _, held, _⟩
      rw [opened] at held
      cases held
    rcases reopened with ⟨ok, _⟩ | ⟨_, e, err⟩
    · exact .inl ⟨by simp [ok, bind, Except.bind, pure, Except.pure], by simpa [TailRead.default]⟩
    · exact .inr ⟨apart, e, by simp [err, bind, Except.bind]⟩
  | some o =>
    by_cases same : o.ino = ino
    · by_cases short : (fs.content ino).length < o.offset
      · have follows : t.FollowsRotation fs faults ↔ faults.restart = none := by
          simp [FollowsRotation, metadata, path, opened, same, short]
        cases restart : faults.restart with
        | some e =>
          rw [restart] at follows
          exact .inr ⟨by simp [follows], e, by simp [same, short, bind, Except.bind]⟩
        | none =>
          refine .inl ⟨by simp [same, short, pure, Except.pure], ?_⟩
          simp [same, short, follows, restart]
      · have apart : ¬ t.FollowsRotation fs faults := by
          simp [FollowsRotation, path, opened, same, short]
        exact .inl ⟨by simp [same, short, pure, Except.pure], by
          simpa [same, short, TailRead.default]⟩
    · have follows : t.FollowsRotation fs faults ↔ faults.drainSeek = none ∧
          faults.drainRead = none ∧ faults.openPath = none ∧ faults.openMetadata = none := by
        simp [FollowsRotation, metadata, path, opened, same]
      cases drainSeek : faults.drainSeek with
      | some e => exact .inr ⟨by simp [follows, drainSeek], e, by simp [same, bind, Except.bind]⟩
      | none =>
        cases drainRead : faults.drainRead with
        | some e => exact .inr ⟨by simp [follows, drainRead], e, by simp [same, bind, Except.bind]⟩
        | none =>
          rcases reopened with ⟨ok, openPath, openMetadata⟩ | ⟨failing, e, err⟩
          · refine .inl ⟨?_, ?_⟩
            · simp [same, ok, bind, Except.bind, pure, Except.pure]
            · simp [same, follows, drainSeek, drainRead, openPath, openMetadata]
          · refine .inr ⟨?_, e, by simp [same, err, bind, Except.bind]⟩
            rw [follows]
            rintro ⟨-, -, openPath, openMetadata⟩
            rcases failing rfl with fails | fails
            · exact fails openPath
            · exact fails openMetadata

theorem followed_held {o : OpenFile} (opened : t.opened = some o)
    (long : o.offset ≤ (fs.content o.ino).length) : t.followed fs o.ino = (t, .default) := by
  unfold followed
  simp [opened, Nat.not_lt_of_le long]

/-- The file held is read on, or the one at the path is read from its start. -/
theorem followed_cases (t : LogTail) (fs : FileSystem) (ino : Nat) :
    (∃ o, t.opened = some o ∧ o.ino = ino ∧ o.offset ≤ (fs.content ino).length ∧
        t.followed fs ino = (t, .default)) ∨
      ((t.followed fs ino).1.opened = some ⟨ino, 0⟩ ∧
        (t.followed fs ino).1.lastRead = t.lastRead ∧ (t.followed fs ino).1.maxGap = t.maxGap ∧
        (t.followed fs ino).2.reattached = none ∧
        ((t.followed fs ino).2 = .default ∨ (t.followed fs ino).2.rotated = true)) := by
  unfold followed
  cases opened : t.opened with
  | none => exact .inr ⟨rfl, rfl, rfl, rfl, .inl rfl⟩
  | some o =>
    by_cases same : o.ino = ino
    · by_cases short : (fs.content ino).length < o.offset
      · simp [same, short]
      · exact .inl ⟨o, rfl, same, Nat.le_of_not_lt short, by simp [same, short]⟩
    · simp [same]

/-- A read that followed a file has nothing left to follow in it. -/
theorem followed_settles (t : LogTail) (fs : FileSystem) (ino : Nat) :
    (t.followed fs ino).1.followed fs ino = ((t.followed fs ino).1, .default) := by
  rcases followed_cases t fs ino with ⟨o, opened, rfl, long, same⟩ | ⟨opened, _⟩
  · rw [same]
    exact same
  · exact followed_held opened (Nat.zero_le _)

theorem followed_opened (t : LogTail) (fs : FileSystem) (ino : Nat) :
    ∃ o, (t.followed fs ino).1.opened = some o := by
  rcases followed_cases t fs ino with ⟨o, opened, _, _, same⟩ | ⟨opened, _⟩
  · rw [same]
    exact ⟨o, opened⟩
  · exact ⟨_, opened⟩

theorem followed_early (t : LogTail) (fs : FileSystem) (ino : Nat) :
    (t.followed fs ino).2.reattached = none ∧
      ((t.followed fs ino).2 = .default ∨ (t.followed fs ino).2.rotated = true) := by
  rcases followed_cases t fs ino with ⟨_, _, _, _, same⟩ | ⟨_, _, _, early⟩
  · rw [same]
    exact ⟨rfl, .inl rfl⟩
  · exact early

/-- What a read that succeeds returns does not depend on when the one before it was. -/
theorem followed_lastRead (t : LogTail) (fs : FileSystem) (ino : Nat) (lastRead : Option Nat) :
    { t with lastRead := lastRead }.followed fs ino =
      ({ (t.followed fs ino).1 with lastRead := lastRead }, (t.followed fs ino).2) := by
  unfold followed
  cases opened : t.opened with
  | none => rfl
  | some o =>
    by_cases same : o.ino = ino
    · by_cases short : (fs.content ino).length < o.offset
      · simp [same, short]
      · simp [opened, same, short]
    · simp [same]

theorem readOn_lastRead (t : LogTail) (fs : FileSystem) (ino : Nat) (lastRead : Option Nat) :
    ({ t with lastRead := lastRead }.readOn fs ino).2 = (t.readOn fs ino).2 := by
  unfold readOn
  rw [followed_lastRead]
  unfold readRest
  cases (t.followed fs ino).1.opened <;> rfl

theorem followed_kept (t : LogTail) (fs : FileSystem) (ino : Nat) :
    (t.followed fs ino).1.lastRead = t.lastRead ∧ (t.followed fs ino).1.maxGap = t.maxGap := by
  rcases followed_cases t fs ino with ⟨_, _, _, _, same⟩ | ⟨_, last, gap, _⟩
  · rw [same]
    exact ⟨rfl, rfl⟩
  · exact ⟨last, gap⟩

/-- The rest of a file that is held is read, or a fault leaves the tail as it was. -/
theorem readRest_cases {o : OpenFile} (opened : t.opened = some o) (fs : FileSystem)
    (faults : IoFaults) (out : TailRead) :
    (∃ read, (t.readRest fs .none out).2 = .ok read ∧ read.rotated = out.rotated ∧
      read.reattached = out.reattached ∧
      t.readRest fs faults out = t.readRest fs .none out) ∨
    ∃ e, t.readRest fs faults out = (t, .error e) := by
  unfold readRest
  rw [opened]
  cases seek : faults.seek with
  | some e => exact .inr ⟨e, rfl⟩
  | none =>
    cases readToEnd : faults.readToEnd with
    | some e => exact .inr ⟨e, rfl⟩
    | none => exact .inl ⟨_, rfl, rfl, rfl, rfl⟩

/-- A read that did not re-attach: it is the read without faults, or it failed where it was, or
behind the file it had followed. -/
theorem readNew_cases (path : fs.path = some ino) (apart : ¬ t.Reattaches fs now)
    (faults : IoFaults) :
    let here := { t with lastRead := some now }
    let f := here.followed fs ino
    (∃ out, (t.readNew fs faults now).2 = .ok out ∧ (t.readOn fs ino).2 = .ok out ∧
      t.readNew fs faults now = here.readOn fs ino) ∨
    (¬ t.FollowsRotation fs faults ∧ ∃ e, t.readNew fs faults now = (here, .error e)) ∨
    ((f.2.rotated = true ↔ t.FollowsRotation fs faults) ∧
      ∃ e, t.readNew fs faults now = (f.1, .error e)) := by
  intro here f
  have noBacklog : here.backlog (t.lastRead.map fun last => now - last) ino
      (fs.content ino).length = none := by
    refine Option.not_isSome_iff_eq_none.mp fun found => apart ⟨ino, path, found⟩
  have same : here.FollowsRotation fs faults ↔ t.FollowsRotation fs faults := Iff.rfl
  cases metadata : faults.metadata with
  | some e =>
    refine .inr (.inl ⟨?_, e, by simp [readNew, path, metadata, here]⟩)
    rintro ⟨none, _⟩
    rw [metadata] at none
    cases none
  | none =>
    rcases follow_cases (t := here) path metadata with ⟨follow, follows⟩ | ⟨follows, e, follow⟩
    · obtain ⟨o, opened⟩ := followed_opened here fs ino
      rcases readRest_cases opened fs faults f.2 with
        ⟨out, clean, _, _, read⟩ | ⟨e, read⟩
      · have goesOn : t.readNew fs faults now = here.readOn fs ino := by
          rw [readOn, ← read]
          simp [readNew, path, metadata, here, noBacklog, follow, f]
        refine .inl ⟨out, ?_, ?_, goesOn⟩
        · rw [goesOn]
          exact clean
        · rw [← readOn_lastRead t fs ino (some now)]
          exact clean
      · refine .inr (.inr ⟨follows.trans same, e, ?_⟩)
        rw [← read]
        simp [readNew, path, metadata, here, noBacklog, follow, f]
    · refine .inr (.inl ⟨mt same.mpr follows, e, ?_⟩)
      simp [readNew, path, metadata, here, noBacklog, follow]

theorem readNew_returns {kept : LogTail} {out : TailRead} (path : fs.path = some ino)
    (apart : ¬ t.Reattaches fs now) (ok : t.readNew fs faults now = (kept, .ok out)) :
    (t.readOn fs ino).2 = .ok out := by
  rcases readNew_cases path apart faults with ⟨out', found, clean, _⟩ | ⟨_, e, failed⟩ | ⟨_, e, failed⟩
  · rw [ok] at found
    cases found
    exact clean
  · rw [ok] at failed
    cases failed
  · rw [ok] at failed
    cases failed

theorem follow_none (path : fs.path = some ino) :
    t.follow fs .none ino (fs.content ino).length = .ok (t.followed fs ino) := by
  have reopened : reopen fs .none false = .ok ⟨ino, 0⟩ := by
    simp [reopen, path, IoFaults.none, pure, Except.pure]
  have drainSeek : IoFaults.none.drainSeek = none := rfl
  have drainRead : IoFaults.none.drainRead = none := rfl
  have restart : IoFaults.none.restart = none := rfl
  unfold follow followed
  cases opened : t.opened with
  | none => simp [reopened, bind, Except.bind, pure, Except.pure]
  | some o =>
    by_cases same : o.ino = ino
    · by_cases short : (fs.content ino).length < o.offset
      · simp [same, short, restart, pure, Except.pure]
      · simp [same, short, pure, Except.pure]
    · simp [same, reopened, drainSeek, drainRead, bind, Except.bind, pure, Except.pure]

/-- What a read without faults that does not re-attach returns. -/
theorem readNew_clean (path : fs.path = some ino) (apart : ¬ t.Reattaches fs now) :
    ∃ out, (t.readNew fs .none now).2 = .ok out ∧ (t.readOn fs ino).2 = .ok out ∧
      out.rotated = (t.followed fs ino).2.rotated ∧ out.reattached = none := by
  have noBacklog : { t with lastRead := some now }.backlog (t.lastRead.map fun last => now - last)
      ino (fs.content ino).length = none :=
    Option.not_isSome_iff_eq_none.mp fun found => apart ⟨ino, path, found⟩
  have read : t.readNew fs .none now = { t with lastRead := some now }.readOn fs ino := by
    have metadata : IoFaults.none.metadata = none := rfl
    simp [readNew, path, metadata, noBacklog, follow_none path, readOn]
  obtain ⟨o, opened⟩ := followed_opened t fs ino
  rcases readRest_cases opened fs .none (t.followed fs ino).2 with
    ⟨out, clean, rotated, reattached, _⟩ | ⟨e, failed⟩
  · refine ⟨out, ?_, clean, rotated, reattached.trans (followed_early t fs ino).1⟩
    rw [read, readOn_lastRead, readOn, clean]
  · simp [readRest, opened, IoFaults.none] at failed

/-- A read that re-attaches says so, or it failed where it was. -/
theorem readNew_reattaches (re : t.Reattaches fs now) (faults : IoFaults) :
    (∃ ideal, (t.readNew fs .none now).2 = .ok ideal ∧ ideal.reattached.isSome = true) ∧
      ((∃ out, (t.readNew fs faults now).2 = .ok out) ∨
        ∃ e, t.readNew fs faults now = ({ t with lastRead := some now }, .error e)) := by
  obtain ⟨ino, path, found⟩ := re
  obtain ⟨skipped, backlog⟩ := Option.isSome_iff_exists.mp found
  have again : { t with lastRead := some now }.backlog (t.lastRead.map fun last => now - last) ino
      (fs.content ino).length = some skipped := backlog
  constructor
  · have metadata : IoFaults.none.metadata = none := rfl
    have reopened : reopen fs .none true = .ok ⟨ino, (fs.content ino).length⟩ := by
      simp [reopen, path, IoFaults.none, pure, Except.pure]
    exact ⟨_, by simp [readNew, path, metadata, again, reopened]; rfl, rfl⟩
  · cases metadata : faults.metadata with
    | some e => exact .inr ⟨e, by simp [readNew, path, metadata]⟩
    | none =>
      cases reopened : reopen fs faults true with
      | error e => exact .inr ⟨e, by simp [readNew, path, metadata, again, reopened]⟩
      | ok o => exact .inl ⟨_, by simp [readNew, path, metadata, again, reopened]; rfl⟩

/-- Behind a read that failed, the next one comes too soon to re-attach. -/
theorem not_reattaches_soon (fs : FileSystem) {later : Nat} (last : t.lastRead = some now)
    (soon : later - now < t.maxGap) : ¬ t.Reattaches fs later := by
  rintro ⟨ino, _, found⟩
  have none : t.backlog (t.lastRead.map fun last => later - last) ino (fs.content ino).length =
      none := by
    unfold backlog
    rw [last]
    cases t.opened with
    | none => rfl
    | some o =>
      refine if_neg ?_
      rintro ⟨long, _⟩
      exact absurd soon (Nat.not_lt_of_le long)
  rw [none] at found
  cases found

/-- A failed read is made good by any tail that goes on to what it would have read. -/
theorem retried_of_readOn {t' : LogTail} {later : Nat} {e : String} (path : fs.path = some ino)
    (apart : ¬ t.Reattaches fs now) (kept : t.readNew fs faults now = (t', .error e))
    (soon : ¬ t'.Reattaches fs later) (same : (t'.readOn fs ino).2 = (t.readOn fs ino).2) :
    t.Retried fs faults now later := by
  intro again after whole out ideal next ideally
  rw [kept] at next
  have read := readNew_returns path soon next
  rw [same, readNew_returns path apart ideally] at read
  cases read
  exact ⟨rfl, rfl, rfl, rfl⟩

/-- What a read that is made good tells is what the tail it left still follows. -/
theorem told_of_retried {t' : LogTail} {later : Nat} {e : String} {ideal : TailRead}
    (retried : t.Retried fs faults now later) (path : fs.path = some ino)
    (kept : t.readNew fs faults now = (t', .error e)) (soon : ¬ t'.Reattaches fs later)
    (told : (t.readNew fs .none now).2 = .ok ideal) :
    ideal.rotated = (t'.followed fs ino).2.rotated ∧ ideal.reattached.isSome = false := by
  obtain ⟨out, ok, _, quiet, none⟩ := readNew_clean path soon
  rw [Retried, kept] at retried
  have same := retried .none _ _ out ideal (Prod.ext rfl ok) (Prod.ext rfl told)
  refine ⟨same.rotated.symm.trans quiet, ?_⟩
  rw [← same.reattached, none]
  rfl

end LogTail

/-- A failed read leaves the tail to be retried exactly when it would not have re-attached and
had followed no rotation. -/
theorem failed_read_retried_iff (t : LogTail) (fs : FileSystem) (faults : IoFaults)
    (now later interval : Nat) (e : String) (ticks : 0 < interval)
    (gap : t.maxGap = interval * reattachIntervals) (soon : later ≤ now + interval)
    (failed : (t.readNew fs faults now).2 = .error e) :
    t.Retried fs faults now later ↔
      ¬ t.Reattaches fs now ∧ ¬ t.FollowsRotation fs faults := by
  have short : later - now < t.maxGap := by
    rw [gap, reattachIntervals]
    omega
  cases path : fs.path with
  | none =>
    have nothing : ¬ t.Reattaches fs now ∧ ¬ t.FollowsRotation fs faults := by
      constructor
      · rintro ⟨_, some_, _⟩
        rw [path] at some_
        cases some_
      · rintro ⟨_, _, _, some_, _⟩
        rw [path] at some_
        cases some_
    refine iff_of_true ?_ nothing
    intro again kept whole out ideal retried
    simp [LogTail.readNew, path] at retried
  | some ino =>
    have soon : ¬ { t with lastRead := some now }.Reattaches fs later :=
      LogTail.not_reattaches_soon fs rfl short
    by_cases re : t.Reattaches fs now
    · refine iff_of_false ?_ fun neither => neither.1 re
      intro retried
      obtain ⟨⟨ideal, told, some_⟩, ⟨out, ok⟩ | ⟨e', kept⟩⟩ := LogTail.readNew_reattaches re faults
      · rw [ok] at failed
        cases failed
      · have none := (LogTail.told_of_retried retried path kept soon told).2
        rw [none] at some_
        cases some_
    · rcases LogTail.readNew_cases path re faults with
        ⟨out, ok, _⟩ | ⟨stayed, e', kept⟩ | ⟨follows, e', kept⟩
      · rw [ok] at failed
        cases failed
      · refine iff_of_true ?_ ⟨re, stayed⟩
        exact LogTail.retried_of_readOn path re kept soon (t.readOn_lastRead fs ino (some now))
      · obtain ⟨ideal, told, _, rotated, _⟩ := LogTail.readNew_clean path re
        have settled := LogTail.followed_settles { t with lastRead := some now } fs ino
        have held := LogTail.followed_kept { t with lastRead := some now } fs ino
        have soon := LogTail.not_reattaches_soon fs held.1 (Nat.lt_of_lt_of_eq short held.2.symm)
        have early : ({ t with lastRead := some now }.followed fs ino).2 =
            (t.followed fs ino).2 := by rw [LogTail.followed_lastRead]
        rcases (LogTail.followed_early t fs ino).2 with plain | turned
        · have stays : ¬ t.FollowsRotation fs faults := by
            rw [← follows, early, plain]
            exact Bool.false_ne_true
          refine iff_of_true ?_ ⟨re, stays⟩
          refine LogTail.retried_of_readOn path re kept soon ?_
          rw [← t.readOn_lastRead fs ino (some now), LogTail.readOn, LogTail.readOn, settled,
            early, plain]
        · have rotates : t.FollowsRotation fs faults := follows.mp (early ▸ turned)
          refine iff_of_false ?_ fun neither => neither.2 rotates
          intro retried
          have quiet := (LogTail.told_of_retried retried path kept soon told).1
          rw [rotated, settled, turned] at quiet
          cases quiet

/-- A tail ticked every 15 that has read five bytes of a file and buffers the last two. -/
def midLine : LogTail := ⟨60, fun _ => true, some ⟨1, 5⟩, [0x61, 0x62], false, 0, some 0⟩

def cutFile : FileSystem := ⟨some 1, fun _ => [0x63, 0x0A]⟩

/-- The file was cut and cannot be read: the rotation and its lost line are never told. -/
theorem rotation_forgotten_after_failed_read :
    (midLine.readNew cutFile { IoFaults.none with readToEnd := some "EIO" } 15).2 = .error "EIO" ∧
      ¬ midLine.Retried cutFile { IoFaults.none with readToEnd := some "EIO" } 15 30 := by
  refine ⟨rfl, fun retried => ?_⟩
  have same := retried .none _ _ ⟨["c"], none, 0, false⟩ ⟨["c"], none, 1, true⟩
    (by rfl) (by rfl)
  exact Bool.false_ne_true same.rotated

theorem failed_read_retried_iff_metadata :
    midLine.Retried cutFile { IoFaults.none with metadata := some "EIO" } 15 30 := by
  refine (failed_read_retried_iff midLine cutFile _ 15 30 15 "EIO" (by decide) rfl (by decide)
    rfl).mpr ⟨?_, ?_⟩
  · rintro ⟨ino, _, found⟩
    simp [LogTail.backlog, midLine] at found
  · rintro ⟨metadata, _⟩
    cases metadata

end NetObserver
