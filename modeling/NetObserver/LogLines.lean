import NetObserver.LogStretches

/-! Whether a tail returns whole lines only, over any run of the writers of its files and of its
reads. -/

namespace NetObserver

open Delimited (cut Ended)

/-- What befalls the files of a log, and the reads. A move puts another file at the path, or none. -/
inductive LogEvent where
  | append (ino : Nat) (bytes : List UInt8)
  | truncate (ino : Nat)
  | move (path : Option Nat)
  | read (now : Nat) (faults : IoFaults)

/-- The files and the tail; `cut` once the file held is cut in place, until a read succeeds. -/
structure LogWatch where
  fs : FileSystem
  tail : LogTail
  cut : Bool

/-- A read that succeeded, with the files and the tail it began with. -/
structure LoggedRead where
  fs : FileSystem
  tail : LogTail
  cut : Bool
  now : Nat
  out : TailRead

namespace LoggedRead

def returned (r : LoggedRead) : List PlacedLine :=
  (r.tail.stretches r.fs r.now).flatMap fun s => s.returned r.fs r.tail.admits

def Whole (r : LoggedRead) : Prop := ∀ line ∈ r.returned, line.Whole r.fs

def BeginsWhole (r : LoggedRead) : Prop :=
  ∀ s ∈ r.tail.stretches r.fs r.now, s.BeginsWhole r.fs r.tail.admits

/-- A read that re-attaches finds no incomplete line, and any other a file cut in place shorter
than what was read of it. -/
def Lands (r : LoggedRead) : Prop :=
  (r.tail.Reattaches r.fs r.now →
    ∀ ino, r.fs.path = some ino → Ended newline (r.fs.content ino)) ∧
  (¬ r.tail.Reattaches r.fs r.now → r.cut = true → ∀ o, r.tail.opened = some o →
    (r.fs.content o.ino).length < o.offset ∨ o.offset = 0)

end LoggedRead

namespace LogWatch

def attach (fs : FileSystem) (faults : IoFaults) (maxGap : Nat) (admits : List UInt8 → Bool) :
    LogWatch := ⟨fs, .openAtEnd fs faults maxGap admits, false⟩

def step (w : LogWatch) : LogEvent → LogWatch × List LoggedRead
  | .append ino bytes => ({ w with fs := w.fs.write ino (w.fs.content ino ++ bytes) }, [])
  | .truncate ino =>
    ({ w with
      fs := w.fs.write ino []
      cut := w.cut || w.tail.opened.any fun o => decide (o.ino = ino) }, [])
  | .move path => ({ w with fs := { w.fs with path := path } }, [])
  | .read now faults =>
    match w.tail.readNew w.fs faults now with
    | (tail, .ok out) => (⟨w.fs, tail, false⟩, [⟨w.fs, w.tail, w.cut, now, out⟩])
    | (tail, .error _) => (⟨w.fs, tail, w.cut⟩, [])

end LogWatch

/-- The file still holds what was read of it, and the tail waits at a line or in a dropped run. -/
structure Stretch.InLine (s : Stretch) (fs : FileSystem) : Prop where
  within : s.file.offset ≤ (fs.content s.file.ino).length
  starts : s.discarding = false → s.AtLineStart fs

/-- While the file held is not cut, the tail is in line with it. -/
def LogWatch.Aligned (w : LogWatch) : Prop :=
  w.cut = false → ∀ o, w.tail.opened = some o → (w.tail.held o).InLine w.fs

namespace Stretch

variable {s : Stretch} {fs fs' : FileSystem}

theorem inLine_of_empty (empty : s.file.offset = 0) (sound : s.Sound) : s.InLine fs :=
  ⟨empty ▸ Nat.zero_le _, fun _ => atLineStart_of_empty empty sound⟩

/-- Appending to the file, or leaving it alone, keeps a stretch in line. -/
theorem InLine.grow (inLine : s.InLine fs) {m : List UInt8}
    (grown : fs'.content s.file.ino = fs.content s.file.ino ++ m) : s.InLine fs' := by
  refine ⟨?_, ?_⟩
  · rw [grown, List.length_append]
    exact Nat.le_add_right_of_le inLine.within
  · intro settled
    obtain ⟨front, taken, ended⟩ := inLine.starts settled
    refine ⟨front, ?_, ended⟩
    rw [grown, List.take_append_of_le_length inLine.within]
    exact taken

theorem beginsWhole_of_short (sound : s.Sound) (admits : List UInt8 → Bool)
    (short : (fs.content s.file.ino).length < s.file.offset) : s.BeginsWhole fs admits := by
  have nothing : s.unread fs = [] := List.drop_eq_nil_of_le (Nat.le_of_lt short)
  rcases complete_eq sound fs with ⟨complete, _⟩ | ⟨x, more, _, cuts, _⟩
  · intro _ raw head
    rw [complete] at head
    cases head
  · rw [nothing] at cuts
    cases cuts

end Stretch

theorem LogTail.Holds.held_eq {t : LogTail} {s : Stretch} (holds : t.Holds s) {o : OpenFile}
    (opened : t.opened = some o) : t.held o = s := by
  rw [holds.opened] at opened
  cases opened
  rw [held, holds.buffer, holds.discarding]

namespace LogWatch

variable {w : LogWatch}

theorem attach_sound (fs : FileSystem) (faults : IoFaults) (maxGap : Nat)
    (admits : List UInt8 → Bool) : (attach fs faults maxGap admits).tail.Sound :=
  ⟨List.not_mem_nil, fun _ _ => Nat.zero_le _, fun _ => ⟨rfl, rfl⟩⟩

theorem step_read_ok {now : Nat} {faults : IoFaults} {tail : LogTail} {out : TailRead}
    (read : w.tail.readNew w.fs faults now = (tail, .ok out)) : w.step (.read now faults) =
      (⟨w.fs, tail, false⟩, [⟨w.fs, w.tail, w.cut, now, out⟩]) := by
  simp only [step, read]

theorem step_read_error {now : Nat} {faults : IoFaults} {tail : LogTail} {e : String}
    (read : w.tail.readNew w.fs faults now = (tail, .error e)) :
    w.step (.read now faults) = (⟨w.fs, tail, w.cut⟩, []) := by
  simp only [step, read]

theorem step_sound (sound : w.tail.Sound) (event : LogEvent) :
    (w.step event).1.tail.Sound ∧
      ∀ read ∈ (w.step event).2, read.tail.Sound ∧
        read.out.lines = read.returned.map PlacedLine.text := by
  cases event with
  | append ino bytes => exact ⟨sound, fun read logged => nomatch logged⟩
  | truncate ino => exact ⟨sound, fun read logged => nomatch logged⟩
  | move path => exact ⟨sound, fun read logged => nomatch logged⟩
  | read now faults =>
    rcases read : w.tail.readNew w.fs faults now with ⟨tail, e | out⟩
    · rw [step_read_error read]
      exact ⟨LogTail.readNew_sound sound read, fun read logged => nomatch logged⟩
    · rw [step_read_ok read]
      refine ⟨LogTail.readNew_sound sound read, ?_⟩
      intro logged listed
      rw [List.mem_singleton.mp listed]
      exact ⟨sound, LogTail.readNew_lines read⟩

/-- Each stretch of a read that lands is in line with its file, or the file has nothing more of
it. -/
theorem stretches_inLine (sound : w.tail.Sound) (aligned : w.Aligned) (now : Nat)
    (short : w.cut = true → ∀ o, w.tail.opened = some o →
      (w.fs.content o.ino).length < o.offset ∨ o.offset = 0) :
    ∀ s ∈ w.tail.stretches w.fs now,
      s.InLine w.fs ∨ (w.fs.content s.file.ino).length < s.file.offset := by
  intro s listed
  have fine := LogTail.stretches_sound sound w.fs now s listed
  rcases LogTail.stretches_cases w.fs now s listed with ⟨o, opened, rfl⟩ | ⟨ino, _, rfl⟩ | ⟨ino, rfl⟩
  · cases cut : w.cut with
    | false => exact .inl (aligned cut o opened)
    | true =>
      rcases short cut o opened with less | empty
      · exact .inr less
      · exact .inl (Stretch.inLine_of_empty empty fine)
  · exact .inl (Stretch.inLine_of_empty rfl fine)
  · exact .inl (Stretch.inLine_of_empty rfl fine)

theorem aligned_of_holds {fs : FileSystem} {tail : LogTail} {cut : Bool} {s : Stretch}
    (holds : tail.Holds s) (inLine : s.InLine fs) : Aligned ⟨fs, tail, cut⟩ := by
  intro _ o opened
  rw [holds.held_eq opened]
  exact inLine

/-- A read that succeeds and lands begins whole, and the next one will. -/
theorem read_aligned (sound : w.tail.Sound) (aligned : w.Aligned) {tail : LogTail}
    {faults : IoFaults} {now : Nat} {out : TailRead}
    (read : w.tail.readNew w.fs faults now = (tail, .ok out))
    (lands : LoggedRead.Lands ⟨w.fs, w.tail, w.cut, now, out⟩) :
    Aligned ⟨w.fs, tail, false⟩ ∧ LoggedRead.BeginsWhole ⟨w.fs, w.tail, w.cut, now, out⟩ := by
  by_cases re : w.tail.Reattaches w.fs now
  · obtain ⟨_, ino, path, holds⟩ := LogTail.readNew_skips re read
    have ended := lands.1 re ino path
    refine ⟨aligned_of_holds holds ⟨Nat.le_refl _, fun _ => ⟨w.fs.content ino, ?_, ended⟩⟩, ?_⟩
    · rw [List.take_length, List.append_nil]
    · intro s listed
      rw [LogTail.stretches_of_reattaches re] at listed
      cases listed
  · have inLine := stretches_inLine sound aligned now (lands.2 re)
    have fine := LogTail.stretches_sound sound w.fs now
    obtain ⟨front, last, split, within, _, holds⟩ := LogTail.readNew_splits re read
    have listed : last ∈ w.tail.stretches w.fs now := by
      rw [split]
      exact List.mem_append_right _ (List.mem_singleton_self last)
    refine ⟨aligned_of_holds holds ⟨?_, ?_⟩, ?_⟩
    · show last.file.offset + (last.unread w.fs).length ≤ (w.fs.content last.file.ino).length
      rw [Stretch.unread, List.length_drop]
      omega
    · rcases inLine last listed with here | less
      · exact Stretch.after_atLineStart (fine last listed) within here.starts
      · omega
    · intro s mem
      rcases inLine s mem with here | less
      · intro settled _ _ _
        exact here.starts settled
      · exact Stretch.beginsWhole_of_short (fine s mem) w.tail.admits less

theorem fail_aligned (sound : w.tail.Sound) (aligned : w.Aligned) {tail : LogTail}
    {faults : IoFaults} {now : Nat} {e : String}
    (read : w.tail.readNew w.fs faults now = (tail, .error e)) : Aligned ⟨w.fs, tail, w.cut⟩ := by
  intro cut
  rcases LogTail.readNew_fails read with ⟨opened, buffer, discarding⟩ | ⟨last, listed, holds⟩
  · intro o held
    rw [opened] at held
    have same : tail.held o = w.tail.held o := by
      rw [LogTail.held, LogTail.held, buffer, discarding]
    rw [same]
    exact aligned cut o held
  · have fine := LogTail.stretches_sound sound w.fs now last listed
    have inLine : last.InLine w.fs := by
      rcases LogTail.stretches_cases w.fs now last listed with
        ⟨o, opened, rfl⟩ | ⟨ino, _, rfl⟩ | ⟨ino, rfl⟩
      · exact aligned cut o opened
      · exact Stretch.inLine_of_empty rfl fine
      · exact Stretch.inLine_of_empty rfl fine
    exact aligned_of_holds holds inLine cut

theorem step_aligned (sound : w.tail.Sound) (aligned : w.Aligned) (event : LogEvent)
    (lands : ∀ read ∈ (w.step event).2, read.Lands) :
    (w.step event).1.Aligned ∧ ∀ read ∈ (w.step event).2, read.BeginsWhole := by
  cases event with
  | append ino bytes =>
    refine ⟨?_, fun read logged => nomatch logged⟩
    intro cut o opened
    by_cases same : o.ino = ino
    · refine (aligned cut o opened).grow (m := bytes) ?_
      subst same
      exact if_pos rfl
    · refine (aligned cut o opened).grow (m := []) ?_
      rw [List.append_nil]
      exact if_neg same
  | truncate ino =>
    refine ⟨?_, fun read logged => nomatch logged⟩
    intro cut o opened
    obtain ⟨before, other⟩ := Bool.or_eq_false_iff.mp cut
    have held : w.tail.opened = some o := opened
    rw [held] at other
    refine (aligned before o held).grow (m := []) ?_
    rw [List.append_nil]
    exact if_neg (of_decide_eq_false other)
  | move path =>
    refine ⟨?_, fun read logged => nomatch logged⟩
    intro cut o opened
    refine (aligned cut o opened).grow (m := []) ?_
    rw [List.append_nil]
    rfl
  | read now faults =>
    rcases read : w.tail.readNew w.fs faults now with ⟨tail, e | out⟩
    · rw [step_read_error read]
      exact ⟨fail_aligned sound aligned read, fun read logged => nomatch logged⟩
    · rw [step_read_ok read] at lands ⊢
      obtain ⟨next, begins⟩ := read_aligned sound aligned read (lands _ (List.mem_singleton_self _))
      refine ⟨next, ?_⟩
      intro logged listed
      rw [List.mem_singleton.mp listed]
      exact begins

theorem attach_opened {fs : FileSystem} {faults : IoFaults} {maxGap : Nat}
    {admits : List UInt8 → Bool} {o : OpenFile}
    (opened : (attach fs faults maxGap admits).tail.opened = some o) :
    o.offset = (fs.content o.ino).length := by
  cases ok : LogTail.reopen fs faults true with
  | error e => simp [attach, LogTail.openAtEnd, ok, Except.toOption] at opened
  | ok found =>
    have same : found = o := by
      simpa [attach, LogTail.openAtEnd, ok, Except.toOption] using opened
    cases path : fs.path with
    | none => simp [LogTail.reopen, path] at ok
    | some ino =>
      rw [← same, LogTail.reopen_end_ok path ok]

theorem attach_aligned {fs : FileSystem} {faults : IoFaults} {maxGap : Nat}
    {admits : List UInt8 → Bool}
    (lands : ∀ o, (attach fs faults maxGap admits).tail.opened = some o →
      Ended newline (fs.content o.ino)) : (attach fs faults maxGap admits).Aligned := by
  intro _ o opened
  have atEnd := attach_opened opened
  refine ⟨Nat.le_of_eq atEnd, fun _ => ⟨fs.content o.ino, ?_, lands o opened⟩⟩
  show (fs.content o.ino).take o.offset = fs.content o.ino ++ []
  rw [atEnd, List.take_length, List.append_nil]

/-- In every run the lines of a read are those of its stretches, decoded. -/
theorem run_sound (sound : w.tail.Sound) (events : List LogEvent) :
    ∀ read ∈ (Runs.emit step w events).2, read.tail.Sound ∧
      read.out.lines = read.returned.map PlacedLine.text := by
  induction events generalizing w with
  | nil => exact fun read logged => nomatch logged
  | cons event events ih =>
    obtain ⟨next, here⟩ := step_sound sound event
    rw [Runs.emit_cons]
    exact List.forall_mem_append.mpr ⟨here, ih next⟩

/-- A run whose reads all land begins every stretch at a line. -/
theorem run_aligned (sound : w.tail.Sound) (aligned : w.Aligned) (events : List LogEvent)
    (lands : ∀ read ∈ (Runs.emit step w events).2, read.Lands) :
    ∀ read ∈ (Runs.emit step w events).2, read.BeginsWhole := by
  induction events generalizing w with
  | nil => exact fun read logged => nomatch logged
  | cons event events ih =>
    rw [Runs.emit_cons] at lands ⊢
    obtain ⟨here, later⟩ := List.forall_mem_append.mp lands
    obtain ⟨next, begins⟩ := step_aligned sound aligned event here
    exact List.forall_mem_append.mpr ⟨begins, ih (step_sound sound event).1 next later⟩

end LogWatch

theorem LoggedRead.whole_iff {r : LoggedRead} (sound : r.tail.Sound) :
    r.Whole ↔ r.BeginsWhole := by
  have each : ∀ s ∈ r.tail.stretches r.fs r.now,
      ((∀ line ∈ s.returned r.fs r.tail.admits, line.Whole r.fs) ↔
        s.BeginsWhole r.fs r.tail.admits) :=
    fun s listed => Stretch.returned_whole_iff (LogTail.stretches_sound sound r.fs r.now s listed)
  constructor
  · intro whole s listed
    refine (each s listed).mp ?_
    intro line placed
    exact whole line (List.mem_flatMap.mpr ⟨s, listed, placed⟩)
  · intro begins line placed
    obtain ⟨s, listed, inside⟩ := List.mem_flatMap.mp placed
    exact (each s listed).mpr (begins s listed) line inside

/-- In every run the returned lines are whole exactly when no read returns the first line of a
stretch that begins elsewhere, as in every run whose attachments find no incomplete line and
whose cuts in place are noticed. -/
theorem returned_lines_whole_iff (fs : FileSystem) (faults : IoFaults) (maxGap : Nat)
    (admits : List UInt8 → Bool) (events : List LogEvent) :
    let attached := LogWatch.attach fs faults maxGap admits
    let reads := (Runs.emit LogWatch.step attached events).2
    (∀ read ∈ reads, read.out.lines = read.returned.map PlacedLine.text) ∧
      ((∀ read ∈ reads, read.Whole) ↔ ∀ read ∈ reads, read.BeginsWhole) ∧
      ((∀ o, attached.tail.opened = some o → Ended newline (fs.content o.ino)) →
        (∀ read ∈ reads, read.Lands) → ∀ read ∈ reads, read.Whole) := by
  intro attached reads
  have sound := LogWatch.attach_sound fs faults maxGap admits
  have logged := LogWatch.run_sound sound events
  have each : ∀ read ∈ reads, read.Whole ↔ read.BeginsWhole :=
    fun read listed => LoggedRead.whole_iff (logged read listed).1
  refine ⟨fun read listed => (logged read listed).2, forall₂_congr each, ?_⟩
  intro atLine lands
  have begins := LogWatch.run_aligned sound (LogWatch.attach_aligned atLine) events lands
  exact fun read listed => (each read listed).mpr (begins read listed)

def unfinishedLine : FileSystem := ⟨some 1, fun _ => [0x61, 0x62]⟩

/-- Attached behind the first bytes of a line, the tail returns the rest of it. -/
theorem attaching_mid_line_returns_a_fragment :
    ∃ read ∈ (Runs.emit LogWatch.step (.attach unfinishedLine .none 60 fun _ => true)
        [.append 1 [0x63, 0x0A], .read 15 .none]).2,
      read.out.lines = ["c"] ∧ ¬ read.Whole := by
  refine ⟨_, List.mem_singleton_self _, by rfl, ?_⟩
  intro whole
  obtain ⟨front, back, content, length, ended, _⟩ :=
    whole ⟨1, 2, [0x63]⟩ (List.mem_singleton_self _)
  have front_eq : [0x61, 0x62] = front := (List.append_inj content length.symm).1
  exact absurd (ended 0x62 (by rw [← front_eq]; rfl)) (by decide)

end NetObserver
