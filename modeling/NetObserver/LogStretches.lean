import NetObserver.LogGenerations
import NetObserver.LogRetry

/-! What a read splits: the stretches of the files it goes through, and where in its file each
line it returns stands. -/

namespace NetObserver

open Delimited (cut placed Ended IsSegment)

/-- A line as it was returned, and where in which file it was split off. -/
structure PlacedLine where
  ino : Nat
  start : Nat
  raw : List UInt8

namespace PlacedLine

def text (line : PlacedLine) : String := Utf8Lossy.fromUtf8Lossy line.raw

/-- The line begins its file or follows a newline there, and the next newline ends it. -/
def Whole (line : PlacedLine) (fs : FileSystem) : Prop :=
  IsSegment newline (fs.content line.ino) line.start line.raw

end PlacedLine

/-- The bytes a read splits of one file: those buffered before, and all from the offset on. -/
structure Stretch where
  file : OpenFile
  buffer : List UInt8
  discarding : Bool

namespace Stretch

variable (s : Stretch) (fs : FileSystem) (admits : List UInt8 → Bool)

def unread : List UInt8 := (fs.content s.file.ino).drop s.file.offset

def start : Nat := s.file.offset - s.buffer.length

def complete : List (List UInt8) := (cut newline (s.buffer ++ s.unread fs)).1

def keeps (raw : List UInt8) : Bool := decide (raw.length ≤ partialCap) && admits raw

/-- The complete lines a split keeps: not the end of a dropped run, not too long, and admitted. -/
def returned : List PlacedLine :=
  (((placed s.start (s.complete fs)).drop (if s.discarding then 1 else 0)).filter
    fun p => keeps admits p.2).map fun p => ⟨s.file.ino, p.1, p.2⟩

/-- The buffered bytes stand in the file up to the offset, from the start of a line on. -/
def AtLineStart : Prop :=
  ∃ front, (fs.content s.file.ino).take s.file.offset = front ++ s.buffer ∧ Ended newline front

/-- The first complete line is not returned, or the stretch begins at a line. -/
def BeginsWhole : Prop :=
  s.discarding = false → ∀ raw ∈ (s.complete fs).head?, keeps admits raw = true → s.AtLineStart fs

/-- No newline is buffered, and the offset counts the buffered bytes. -/
structure Sound : Prop where
  free : newline ∉ s.buffer
  fits : s.buffer.length ≤ s.file.offset

/-- Where the next read of the file goes on. -/
def after : Stretch :=
  let split := splitLines admits s.discarding (s.buffer ++ s.unread fs)
  ⟨⟨s.file.ino, s.file.offset + (s.unread fs).length⟩, split.buffer, split.discarding⟩

end Stretch

namespace LogTail

/-- What a read splits of a file when it goes on there from the tail's buffer. -/
def held (t : LogTail) (o : OpenFile) : Stretch := ⟨o, t.buffer, t.discarding⟩

/-- The stretches a read splits: none when it re-attaches, two across a rotation. -/
def stretches (t : LogTail) (fs : FileSystem) (now : Nat) : List Stretch :=
  match fs.path with
  | none => []
  | some ino =>
    if (t.backlog (t.lastRead.map fun last => now - last) ino (fs.content ino).length).isSome then []
    else
      match t.opened with
      | none => [t.held ⟨ino, 0⟩]
      | some o =>
        if o.ino ≠ ino then [t.held o, ⟨⟨ino, 0⟩, [], false⟩]
        else if (fs.content ino).length < o.offset then [⟨⟨ino, 0⟩, [], false⟩]
        else [t.held o]

/-- No newline is buffered, the offset counts the buffered bytes, and nothing is kept of a file
that is not open. -/
structure Sound (t : LogTail) : Prop where
  free : newline ∉ t.buffer
  fits : ∀ o, t.opened = some o → t.buffer.length ≤ o.offset
  closed : t.opened = none → t.buffer = [] ∧ t.discarding = false

/-- The tail goes on with this stretch. -/
structure Holds (t : LogTail) (s : Stretch) : Prop where
  opened : t.opened = some s.file
  buffer : t.buffer = s.buffer
  discarding : t.discarding = s.discarding

end LogTail

theorem finish_lines (s : Split) (rest : List UInt8) : (s.finish rest).lines = s.lines := by
  unfold Split.finish
  split
  next => rfl
  next =>
    split
    next => rfl
    next => rfl

theorem foldl_take_lines (admits : List UInt8 → Bool) (discarding : Bool)
    (complete : List (List UInt8)) :
    (complete.foldl (Split.take admits) ⟨[], [], discarding, 0⟩).lines =
      admittedLines admits (complete.drop (if discarding then 1 else 0)) := by
  cases discarding with
  | false => rw [foldl_take_eq admits complete _ rfl]; rfl
  | true =>
    cases complete with
    | nil => rfl
    | cons raw complete =>
      have first : Split.take admits ⟨[], [], true, 0⟩ raw = ⟨[], [], false, 0⟩ := rfl
      rw [List.foldl_cons, first, foldl_take_eq admits complete _ rfl]
      rfl

/-- What a split keeps for the next read: nothing inside a dropped run, otherwise its rest. -/
theorem splitLines_keeps (admits : List UInt8 → Bool) (discarding : Bool) (bytes : List UInt8) :
    let s := splitLines admits discarding bytes
    (s.discarding = true ∧ s.buffer = []) ∨
      (s.discarding = false ∧ s.buffer = (cut newline bytes).2 ∧
        (discarding = true → (cut newline bytes).1 ≠ [])) := by
  intro s
  have folded : ∀ complete : List (List UInt8),
      (complete.foldl (Split.take admits) ⟨[], [], discarding, 0⟩).discarding = true ∨
      (complete.foldl (Split.take admits) ⟨[], [], discarding, 0⟩).discarding = false ∧
        (discarding = true → complete ≠ []) := by
    intro complete
    cases discarding with
    | false =>
      rw [foldl_take_eq admits complete _ rfl]
      exact .inr ⟨rfl, fun running => nomatch running⟩
    | true =>
      cases complete with
      | nil => exact .inl rfl
      | cons raw complete =>
        have first : Split.take admits ⟨[], [], true, 0⟩ raw = ⟨[], [], false, 0⟩ := rfl
        rw [List.foldl_cons, first, foldl_take_eq admits complete _ rfl]
        exact .inr ⟨rfl, fun _ => List.cons_ne_nil _ _⟩
  have unfolded : s = ((cut newline bytes).1.foldl (Split.take admits)
      ⟨[], [], discarding, 0⟩).finish (cut newline bytes).2 := rfl
  rw [unfolded]
  unfold Split.finish
  rcases folded (cut newline bytes).1 with running | ⟨settled, found⟩
  · rw [if_pos running]
    exact .inl ⟨running, rfl⟩
  · rw [if_neg (by rw [settled]; exact Bool.false_ne_true)]
    by_cases long : partialCap < (cut newline bytes).2.length
    · rw [if_pos long]
      exact .inl ⟨rfl, rfl⟩
    · rw [if_neg long]
      exact .inr ⟨settled, rfl, found⟩

namespace Stretch

variable {s : Stretch} {fs : FileSystem} {admits : List UInt8 → Bool}

theorem splitLines_returned (s : Stretch) (fs : FileSystem) (admits : List UInt8 → Bool) :
    (splitLines admits s.discarding (s.buffer ++ s.unread fs)).lines =
      (s.returned fs admits).map PlacedLine.text := by
  have lines : (splitLines admits s.discarding (s.buffer ++ s.unread fs)).lines =
      admittedLines admits ((s.complete fs).drop (if s.discarding then 1 else 0)) := by
    unfold splitLines
    rw [finish_lines]
    exact foldl_take_lines admits s.discarding (s.complete fs)
  have segments := Delimited.placed_segments s.start (s.complete fs)
  rw [lines, ← segments, ← List.map_drop, admittedLines, List.filter_map, List.map_map, returned,
    List.map_map]
  rfl

/-- The first line of a stretch is cut out of the buffer and the file, the others out of the file
alone. -/
theorem complete_eq (sound : s.Sound) (fs : FileSystem) :
    s.complete fs = [] ∧ (cut newline (s.unread fs)).1 = [] ∧
        (cut newline (s.buffer ++ s.unread fs)).2 = s.buffer ++ s.unread fs ∨
      ∃ x more, s.complete fs = (s.buffer ++ x) :: more ∧
        (cut newline (s.unread fs)).1 = x :: more ∧
        (cut newline (s.buffer ++ s.unread fs)).2 = (cut newline (s.unread fs)).2 := by
  unfold complete
  rw [Delimited.cut_append_of_free sound.free]
  rcases eq : cut newline (s.unread fs) with ⟨_ | ⟨x, more⟩, rest⟩
  · have all := Delimited.cut_eq_nil (show (cut newline (s.unread fs)).1 = [] by rw [eq])
    rw [eq] at all
    refine .inl ⟨rfl, rfl, ?_⟩
    rw [← all]
    rfl
  · exact .inr ⟨x, more, rfl, rfl, rfl⟩

/-- Of the lines of a stretch, only the first can stand for a fragment. -/
theorem placed_whole (sound : s.Sound) {x : List UInt8} {more : List (List UInt8)}
    (cuts : (cut newline (s.unread fs)).1 = x :: more) :
    (∀ p ∈ placed (s.start + (s.buffer ++ x).length + 1) more,
        IsSegment newline (fs.content s.file.ino) p.1 p.2) ∧
      (IsSegment newline (fs.content s.file.ino) s.start (s.buffer ++ x) ↔ s.AtLineStart fs) := by
  obtain ⟨ys, unread, behind, free⟩ := Delimited.cut_eq_cons cuts
  have content : (fs.content s.file.ino).take s.file.offset ++ (x ++ newline :: ys) =
      fs.content s.file.ino := by
    rw [← unread]
    exact List.take_append_drop _ _
  have reaches : ((fs.content s.file.ino).take s.file.offset).length = s.file.offset := by
    have nonempty := congrArg List.length unread
    rw [Stretch.unread, List.length_drop, List.length_append, List.length_cons] at nonempty
    rw [List.length_take]
    omega
  have fits := sound.fits
  constructor
  · have later := Delimited.placed_isSegment
      (Delimited.ended_snoc newline ((fs.content s.file.ino).take s.file.offset ++ x)) ys
    have length : ((fs.content s.file.ino).take s.file.offset ++ x ++ [newline]).length =
        s.start + (s.buffer ++ x).length + 1 := by
      simp only [List.length_append, List.length_singleton, reaches, start]
      omega
    have stream : (fs.content s.file.ino).take s.file.offset ++ x ++ [newline] ++ ys =
        fs.content s.file.ino := Eq.trans (by simp only [List.append_assoc, List.singleton_append]) content
    rw [length, stream, behind] at later
    exact later
  · constructor
    · rintro ⟨front, back, whole, length, ended, _⟩
      refine ⟨front, ?_, ended⟩
      have offset : (front ++ s.buffer).length = s.file.offset := by
        rw [List.length_append, length, start]
        omega
      have split : fs.content s.file.ino = (front ++ s.buffer) ++ (x ++ newline :: back) := by
        rw [whole]
        simp
      rw [← offset, split]
      exact List.take_left
    · rintro ⟨front, taken, ended⟩
      refine ⟨front, ys, ?_, ?_, ended, ?_⟩
      · rw [← content, taken]
        simp
      · have lengths := congrArg List.length taken
        rw [reaches, List.length_append] at lengths
        rw [start]
        omega
      · intro found
        rcases List.mem_append.mp found with buffered | rest
        · exact sound.free buffered
        · exact free rest

/-- A stretch returns whole lines only, unless its first line is returned and begins elsewhere. -/
theorem returned_whole_iff (sound : s.Sound) :
    (∀ line ∈ s.returned fs admits, line.Whole fs) ↔ s.BeginsWhole fs admits := by
  unfold returned BeginsWhole
  rcases complete_eq sound fs with ⟨complete, _⟩ | ⟨x, more, complete, cuts, _⟩
  · rw [complete]
    simp [placed]
  · obtain ⟨later, first⟩ := placed_whole sound cuts
    have others : ∀ line ∈ ((placed (s.start + (s.buffer ++ x).length + 1) more).filter
        fun p => keeps admits p.2).map fun p => (⟨s.file.ino, p.1, p.2⟩ : PlacedLine),
        line.Whole fs := by
      intro line listed
      obtain ⟨p, kept, rfl⟩ := List.mem_map.mp listed
      exact later p (List.mem_of_mem_filter kept)
    rw [complete, placed]
    cases discarding : s.discarding with
    | true =>
      refine iff_of_true others ?_
      intro settled
      cases settled
    | false =>
      rw [if_neg Bool.false_ne_true, List.drop_zero]
      cases kept : keeps admits (s.buffer ++ x) with
      | false =>
        rw [List.filter_cons_of_neg (by rw [kept]; exact Bool.false_ne_true)]
        refine iff_of_true others ?_
        intro _ raw head keeps
        cases head
        rw [kept] at keeps
        cases keeps
      | true =>
        rw [List.filter_cons_of_pos (by exact kept), List.map_cons, List.forall_mem_cons]
        constructor
        · intro whole _ _ _ _
          exact first.mp whole.1
        · intro begins
          exact ⟨first.mpr (begins rfl (s.buffer ++ x) rfl kept), others⟩

theorem after_offset (s : Stretch) (fs : FileSystem) (admits : List UInt8 → Bool) :
    (s.after fs admits).file.offset = s.file.offset + (s.unread fs).length := rfl

theorem after_sound (sound : s.Sound) : (s.after fs admits).Sound := by
  have fits := sound.fits
  rcases splitLines_keeps admits s.discarding (s.buffer ++ s.unread fs) with
    ⟨_, empty⟩ | ⟨_, rest, _⟩
  · refine ⟨?_, ?_⟩
    · rw [after, empty]
      exact List.not_mem_nil
    · rw [after, empty]
      exact Nat.zero_le _
  · have short := Delimited.rest_length_le newline (s.buffer ++ s.unread fs)
    rw [← rest, List.length_append] at short
    refine ⟨?_, ?_⟩
    · rw [after, rest]
      exact Delimited.rest_free newline _
    · refine Nat.le_trans short ?_
      rw [after_offset]
      omega

theorem atLineStart_of_empty (empty : s.file.offset = 0) (sound : s.Sound) : s.AtLineStart fs := by
  have fits := sound.fits
  have nothing : s.buffer = [] := List.length_eq_zero_iff.mp (by omega)
  refine ⟨[], ?_, Delimited.ended_nil newline⟩
  rw [empty, nothing]
  rfl

/-- A stretch read from the start of a line leaves the next read one, or inside a dropped run. -/
theorem after_atLineStart (sound : s.Sound) (within : s.file.offset ≤ (fs.content s.file.ino).length)
    (starts : s.discarding = false → s.AtLineStart fs)
    (settled : (s.after fs admits).discarding = false) : (s.after fs admits).AtLineStart fs := by
  have all : (fs.content s.file.ino).take (s.after fs admits).file.offset =
      (fs.content s.file.ino).take s.file.offset ++ s.unread fs := by
    rw [unread, List.take_append_drop]
    refine List.take_of_length_le ?_
    rw [after_offset, unread, List.length_drop]
    omega
  unfold AtLineStart
  rw [show (s.after fs admits).file.ino = s.file.ino from rfl, all]
  rcases splitLines_keeps admits s.discarding (s.buffer ++ s.unread fs) with
    ⟨running, _⟩ | ⟨_, rest, found⟩
  · exact absurd (running.symm.trans settled) (by simp)
  · have kept : (s.after fs admits).buffer = (cut newline (s.buffer ++ s.unread fs)).2 := rest
    rw [kept]
    rcases complete_eq sound fs with ⟨none, _, whole⟩ | ⟨x, more, _, cuts, behind⟩
    · have open_ : s.discarding = false := by
        cases discarding : s.discarding with
        | false => rfl
        | true => exact absurd none (found discarding)
      obtain ⟨front, taken, ended⟩ := starts open_
      exact ⟨front, by rw [whole, taken, List.append_assoc], ended⟩
    · have found : (cut newline (s.unread fs)).1 ≠ [] := by
        rw [cuts]
        exact List.cons_ne_nil _ _
      obtain ⟨front, split, last⟩ := Delimited.rest_ended found
      refine ⟨(fs.content s.file.ino).take s.file.offset ++ front, ?_, ?_⟩
      · rw [behind, List.append_assoc, ← split]
      · intro b ends
        rw [List.getLast?_append, last] at ends
        exact (Option.some.inj ends).symm

end Stretch

namespace LogTail

variable {t t' : LogTail} {fs : FileSystem} {faults : IoFaults} {now ino : Nat} {out : TailRead}

theorem Holds.sound {s : Stretch} (holds : t.Holds s) (sound : s.Sound) : t.Sound := by
  refine ⟨holds.buffer ▸ sound.free, ?_, ?_⟩
  · intro o opened
    rw [holds.opened] at opened
    cases opened
    exact holds.buffer ▸ sound.fits
  · intro closed
    rw [holds.opened] at closed
    cases closed

/-- A stretch goes on in the file held, with what is buffered of it, or begins a file. -/
theorem stretches_cases (fs : FileSystem) (now : Nat) :
    ∀ s ∈ t.stretches fs now, (∃ o, t.opened = some o ∧ s = t.held o) ∨
      (∃ ino, t.opened = none ∧ s = t.held ⟨ino, 0⟩) ∨ ∃ ino, s = ⟨⟨ino, 0⟩, [], false⟩ := by
  unfold stretches
  cases path : fs.path with
  | none => exact fun s listed => nomatch listed
  | some ino =>
    dsimp only
    split
    next => exact fun s listed => nomatch listed
    next =>
      cases opened : t.opened with
      | none =>
        intro s listed
        exact .inr (.inl ⟨ino, rfl, List.mem_singleton.mp listed⟩)
      | some o =>
        dsimp only
        split
        next =>
          intro s listed
          rcases List.mem_pair.mp listed with rfl | rfl
          · exact .inl ⟨o, rfl, rfl⟩
          · exact .inr (.inr ⟨ino, rfl⟩)
        next =>
          split
          next =>
            intro s listed
            exact .inr (.inr ⟨ino, List.mem_singleton.mp listed⟩)
          next =>
            intro s listed
            exact .inl ⟨o, rfl, List.mem_singleton.mp listed⟩

theorem stretches_sound (sound : t.Sound) (fs : FileSystem) (now : Nat) :
    ∀ s ∈ t.stretches fs now, s.Sound := by
  intro s listed
  rcases stretches_cases fs now s listed with ⟨o, opened, rfl⟩ | ⟨ino, opened, rfl⟩ | ⟨ino, rfl⟩
  · exact ⟨sound.free, sound.fits o opened⟩
  · refine ⟨sound.free, ?_⟩
    rw [held, (sound.closed opened).1]
    exact Nat.zero_le _
  · exact ⟨List.not_mem_nil, Nat.zero_le _⟩

theorem followed_stretches (path : fs.path = some ino) (apart : ¬ t.Reattaches fs now) :
    ∃ front last, t.stretches fs now = front ++ [last] ∧ (t.followed fs ino).1.Holds last ∧
      (t.followed fs ino).1.admits = t.admits ∧
      (t.followed fs ino).2.lines =
        (front.flatMap fun s => s.returned fs t.admits).map PlacedLine.text ∧
      last.file.offset ≤ (fs.content last.file.ino).length := by
  have noBacklog : ¬ (t.backlog (t.lastRead.map fun last => now - last) ino
      (fs.content ino).length).isSome = true := fun found => apart ⟨ino, path, found⟩
  unfold stretches followed
  rw [path]
  simp only [noBacklog]
  cases opened : t.opened with
  | none =>
    exact ⟨[], t.held ⟨ino, 0⟩, rfl, ⟨rfl, rfl, rfl⟩, rfl, rfl, Nat.zero_le _⟩
  | some o =>
    by_cases same : o.ino = ino
    · by_cases short : (fs.content ino).length < o.offset
      · simp only [same, ne_eq, not_true_eq_false, if_false, short, if_true]
        exact ⟨[], ⟨⟨ino, 0⟩, [], false⟩, rfl, ⟨rfl, rfl, rfl⟩, trivial, rfl, Nat.zero_le _⟩
      · simp only [same, ne_eq, not_true_eq_false, if_false, short]
        refine ⟨[], t.held o, rfl, ⟨opened, rfl, rfl⟩, trivial, rfl, ?_⟩
        show o.offset ≤ (fs.content o.ino).length
        rw [same]
        exact Nat.le_of_not_lt short
    · simp only [same, ne_eq, not_false_eq_true, if_true]
      refine ⟨[t.held o], ⟨⟨ino, 0⟩, [], false⟩, rfl, ⟨rfl, rfl, rfl⟩, trivial, ?_, Nat.zero_le _⟩
      rw [List.flatMap_singleton, ← Stretch.splitLines_returned]
      rfl

theorem stretches_of_reattaches (re : t.Reattaches fs now) : t.stretches fs now = [] := by
  obtain ⟨ino, path, found⟩ := re
  unfold stretches
  rw [path]
  exact if_pos found

theorem reopen_end_ok {o : OpenFile} (path : fs.path = some ino)
    (ok : reopen fs faults true = .ok o) : o = ⟨ino, (fs.content ino).length⟩ :=
  reopen_ok path ok

/-- A read that re-attaches and succeeds returns nothing and waits at the end of the file. -/
theorem readNew_skips (re : t.Reattaches fs now) (ok : t.readNew fs faults now = (t', .ok out)) :
    out.lines = [] ∧ ∃ ino, fs.path = some ino ∧
      t'.Holds ⟨⟨ino, (fs.content ino).length⟩, [], false⟩ := by
  obtain ⟨ino, path, found⟩ := re
  obtain ⟨skipped, backlog⟩ := Option.isSome_iff_exists.mp found
  have again : { t with lastRead := some now }.backlog (t.lastRead.map fun last => now - last) ino
      (fs.content ino).length = some skipped := backlog
  unfold readNew at ok
  rw [path] at ok
  cases metadata : faults.metadata with
  | some e =>
    rw [metadata] at ok
    cases ok
  | none =>
    simp only [metadata, again] at ok
    cases reopened : reopen fs faults true with
    | error e =>
      rw [reopened] at ok
      cases ok
    | ok o =>
      rw [reopened] at ok
      cases ok
      exact ⟨rfl, ino, path, congrArg some (reopen_end_ok path reopened), rfl, rfl⟩

/-- A read that succeeds and does not re-attach returns the lines of its stretches and goes on
behind the last of them. -/
theorem readNew_splits (apart : ¬ t.Reattaches fs now)
    (ok : t.readNew fs faults now = (t', .ok out)) :
    ∃ front last, t.stretches fs now = front ++ [last] ∧
      last.file.offset ≤ (fs.content last.file.ino).length ∧
      out.lines = ((t.stretches fs now).flatMap fun s => s.returned fs t.admits).map
        PlacedLine.text ∧
      t'.Holds (last.after fs t.admits) := by
  cases path : fs.path with
  | none => simp [readNew, path] at ok
  | some ino =>
    rcases readNew_cases path apart faults with ⟨_, _, _, read⟩ | ⟨_, e, failed⟩ | ⟨_, e, failed⟩
    · obtain ⟨front, last, split, holds, admits, early, within⟩ := followed_stretches path apart
      rw [ok, readOn, followed_lastRead] at read
      obtain ⟨s, splits, left, lines, _⟩ :=
        readRest_ok (t := { (t.followed fs ino).1 with lastRead := some now }) (o := last.file)
          holds.opened read.symm
      have same : s = splitLines t.admits last.discarding (last.buffer ++ last.unread fs) := by
        rw [splits, ← holds.buffer, ← holds.discarding, ← admits]
        rfl
      refine ⟨front, last, split, within, ?_, ?_⟩
      · have rest : s.lines = (last.returned fs t.admits).map PlacedLine.text := by
          rw [same, Stretch.splitLines_returned]
        rw [lines, early, rest, split, List.flatMap_append, List.map_append,
          List.flatMap_singleton]
      · rw [left]
        exact ⟨rfl, by rw [same]; rfl, by rw [same]; rfl⟩
    · rw [ok] at failed
      cases failed
    · rw [ok] at failed
      cases failed

theorem readNew_lines (ok : t.readNew fs faults now = (t', .ok out)) :
    out.lines = ((t.stretches fs now).flatMap fun s => s.returned fs t.admits).map
      PlacedLine.text := by
  by_cases re : t.Reattaches fs now
  · rw [stretches_of_reattaches re, (readNew_skips re ok).1]
    rfl
  · obtain ⟨_, _, _, _, lines, _⟩ := readNew_splits re ok
    exact lines

/-- A read that fails leaves the tail as it was or at the file it had followed. -/
theorem readNew_fails {e : String} (failed : t.readNew fs faults now = (t', .error e)) :
    (t'.opened = t.opened ∧ t'.buffer = t.buffer ∧ t'.discarding = t.discarding) ∨
      ∃ last ∈ t.stretches fs now, t'.Holds last := by
  cases path : fs.path with
  | none =>
    simp only [readNew, path] at failed
    cases failed
    exact .inl ⟨rfl, rfl, rfl⟩
  | some ino =>
    by_cases re : t.Reattaches fs now
    · rcases (readNew_reattaches re faults).2 with ⟨_, ok⟩ | ⟨_, kept⟩
      · rw [failed] at ok
        cases ok
      · rw [failed] at kept
        cases kept
        exact .inl ⟨rfl, rfl, rfl⟩
    · rcases readNew_cases path re faults with ⟨_, ok, _⟩ | ⟨_, _, kept⟩ | ⟨_, _, kept⟩
      · rw [failed] at ok
        cases ok
      · rw [failed] at kept
        cases kept
        exact .inl ⟨rfl, rfl, rfl⟩
      · obtain ⟨front, last, split, holds, _⟩ := followed_stretches path re
        rw [failed, followed_lastRead] at kept
        cases kept
        refine .inr ⟨last, ?_, holds.opened, holds.buffer, holds.discarding⟩
        rw [split]
        exact List.mem_append_right _ (List.mem_singleton_self last)

/-- A read keeps the buffer free of newlines and within the offset. -/
theorem readNew_sound (sound : t.Sound) {result : Except String TailRead}
    (read : t.readNew fs faults now = (t', result)) : t'.Sound := by
  have all := stretches_sound sound fs now
  cases result with
  | error e =>
    rcases readNew_fails read with ⟨opened, buffer, discarding⟩ | ⟨last, listed, holds⟩
    · refine ⟨buffer ▸ sound.free, ?_, ?_⟩
      · rw [opened, buffer]
        exact sound.fits
      · rw [opened, buffer, discarding]
        exact sound.closed
    · exact holds.sound (all last listed)
  | ok out =>
    by_cases re : t.Reattaches fs now
    · obtain ⟨_, ino, _, holds⟩ := readNew_skips re read
      exact holds.sound ⟨List.not_mem_nil, Nat.zero_le _⟩
    · obtain ⟨front, last, split, _, _, holds⟩ := readNew_splits re read
      refine holds.sound (Stretch.after_sound (all last ?_))
      rw [split]
      exact List.mem_append_right _ (List.mem_singleton_self last)

end LogTail

end NetObserver
