import Mathlib.Algebra.BigOperators.Group.List.Basic
import Mathlib.Algebra.GroupWithZero.Nat
import Mathlib.Data.List.DropRight
import NetObserver.Runs
import NetObserver.Samples

/-! The loop of an event collector against pauses: what of a batch goes on, and how the log tells
what a pause cost. -/

namespace NetObserver

open Runs

inductive EventLine where
  | dropping
  | resumed (dropped : Nat)
  | ended

/-- A batch of the source, and whether the daemon observed when the loop asked. -/
structure EventBatch where
  samples : List Sample
  observing : Bool

def Sample.isListenerBracket : Sample → Bool
  | .neighbors n => n.isListenerBracket
  | _ => false

namespace EventBatch

def kept (b : EventBatch) : List Sample :=
  if b.observing then b.samples else b.samples.filter Sample.isListenerBracket

def loses (b : EventBatch) : Bool := b.kept.length < b.samples.length

end EventBatch

inductive EventPhase where
  | waiting
  | pulled (samples : List Sample)
  | sending (rest : List Sample)
  | ended
  | consumerGone

/-- Nothing left to send, the source is asked again. -/
def EventPhase.send : List Sample → EventPhase
  | [] => .waiting
  | s :: rest => .sending (s :: rest)

def EventPhase.rest : EventPhase → List Sample
  | sending rest => rest
  | waiting | pulled _ | ended | consumerGone => []

/-- The flag, the loop with its count, its lines, what it sent, and the batches it judged. -/
structure EventLoop where
  observing : Bool
  phase : EventPhase
  droppedWhilePaused : Nat
  log : List EventLine
  sent : List Sample
  judged : List EventBatch

inductive EventStep where
  | setObserving (b : Bool)
  | next (samples : Option (List Sample))
  | judge
  | send
  | refused

namespace EventLoop

def start (observing : Bool) : EventLoop := ⟨observing, .waiting, 0, [], [], []⟩

/-- A paused batch: only what brackets the listener's end goes on, and the first loss is logged. -/
def paused (d : EventLoop) (b : EventBatch) : EventLoop :=
  if b.loses then
    { d with
      log := if d.droppedWhilePaused = 0 then d.log ++ [.dropping] else d.log
      droppedWhilePaused := d.droppedWhilePaused + 1
      phase := .send b.kept
      judged := d.judged ++ [b] }
  else { d with phase := .send b.kept, judged := d.judged ++ [b] }

/-- A batch while the daemon observes: behind a pause the log first tells what the pause cost. -/
def observed (d : EventLoop) (b : EventBatch) : EventLoop :=
  { d with
    log := if 0 < d.droppedWhilePaused then d.log ++ [.resumed d.droppedWhilePaused] else d.log
    droppedWhilePaused := 0
    phase := .send b.kept
    judged := d.judged ++ [b] }

def step (d : EventLoop) (label : EventStep) : Option EventLoop :=
  match d.phase, label with
  | _, .setObserving b => some { d with observing := b }
  | .waiting, .next (some samples) => some { d with phase := .pulled samples }
  | .waiting, .next none => some { d with phase := .ended, log := d.log ++ [.ended] }
  | .pulled samples, .judge =>
    let b : EventBatch := ⟨samples, d.observing⟩
    some (if b.observing then d.observed b else d.paused b)
  | .sending (s :: rest), .send => some { d with sent := d.sent ++ [s], phase := .send rest }
  | .sending (_ :: _), .refused => some { d with phase := .consumerGone }
  | _, _ => none

end EventLoop

/-- The batches judged since one that met the daemon observing. -/
def sinceObserved (judged : List EventBatch) : List EventBatch :=
  judged.rtakeWhile fun b => !b.observing

def EventLine.told : EventLine → Nat
  | resumed dropped => dropped
  | dropping | ended => 0

def EventLine.isDropping : EventLine → Bool
  | dropping => true
  | resumed _ | ended => false

def EventLine.isResumed : EventLine → Bool
  | resumed _ => true
  | dropping | ended => false

/-- What went on of the batches, and what the log tells of the rest. -/
structure EventLoop.Accounts (d : EventLoop) : Prop where
  sent : d.phase ≠ .consumerGone → d.sent ++ d.phase.rest = d.judged.flatMap EventBatch.kept
  gone : d.phase = .consumerGone → d.sent <+: d.judged.flatMap EventBatch.kept
  dropped : d.droppedWhilePaused = (sinceObserved d.judged).countP EventBatch.loses
  told : (d.log.map EventLine.told).sum + d.droppedWhilePaused = d.judged.countP EventBatch.loses
  paired : d.log.countP EventLine.isDropping =
    d.log.countP EventLine.isResumed + if 0 < d.droppedWhilePaused then 1 else 0
  some_ : ∀ n, EventLine.resumed n ∈ d.log → 0 < n

namespace EventLoop

variable {d d' : EventLoop} {b : EventBatch} {label : EventStep}

theorem rest_send (samples : List Sample) : (EventPhase.send samples).rest = samples := by
  cases samples <;> rfl

theorem send_ne_gone (samples : List Sample) : EventPhase.send samples ≠ .consumerGone := by
  cases samples <;> nofun

theorem loses_observed (observing : b.observing = true) : b.loses = false := by
  rw [EventBatch.loses, EventBatch.kept, if_pos observing]
  exact decide_eq_false (Nat.lt_irrefl _)

theorem sinceObserved_snoc (judged : List EventBatch) (b : EventBatch) :
    sinceObserved (judged ++ [b]) = if b.observing then [] else sinceObserved judged ++ [b] := by
  rw [sinceObserved, List.rtakeWhile_concat]
  cases b.observing <;> rfl

theorem Accounts.observed (accounts : d.Accounts) (observing : b.observing = true)
    (sent : d.sent ++ b.kept = (d.judged ++ [b]).flatMap EventBatch.kept) :
    (d.observed b).Accounts := by
  have kept := loses_observed observing
  have since : sinceObserved (d.judged ++ [b]) = [] := by
    rw [sinceObserved_snoc, if_pos observing]
  have told := accounts.told
  have paired := accounts.paired
  refine ⟨fun _ => ?_, fun gone => absurd gone (send_ne_gone _), ?_, ?_, ?_, ?_⟩
  · change d.sent ++ (EventPhase.send b.kept).rest = _
    rw [rest_send]
    exact sent
  · change 0 = (sinceObserved (d.judged ++ [b])).countP EventBatch.loses
    rw [since]
    rfl
  · change (List.map _ (if _ then _ else _)).sum + 0 = (d.judged ++ [b]).countP EventBatch.loses
    rw [List.countP_append, List.countP_singleton, kept]
    split
    next =>
      rw [List.map_append, List.sum_append]
      simpa [EventLine.told] using told
    next none_ =>
      have zero : d.droppedWhilePaused = 0 := by omega
      simpa [zero] using told
  · change List.countP _ (if _ then _ else _) = List.countP _ (if _ then _ else _) +
      if 0 < 0 then 1 else 0
    rw [if_neg (Nat.lt_irrefl 0)]
    split
    next some_ =>
      rw [if_pos some_] at paired
      simpa [List.countP_append, EventLine.isDropping, EventLine.isResumed] using paired
    next none_ =>
      rw [if_neg none_] at paired
      exact paired
  · intro n mem
    change _ ∈ (if _ then _ else _) at mem
    split at mem
    next some_ =>
      rcases List.mem_append.mp mem with old | new
      · exact accounts.some_ n old
      · cases List.mem_singleton.mp new
        exact some_
    next => exact accounts.some_ n mem

theorem Accounts.paused (accounts : d.Accounts) (away : b.observing = false)
    (sent : d.sent ++ b.kept = (d.judged ++ [b]).flatMap EventBatch.kept) :
    (d.paused b).Accounts := by
  have since : sinceObserved (d.judged ++ [b]) = sinceObserved d.judged ++ [b] := by
    rw [sinceObserved_snoc, if_neg (by rw [away]; exact Bool.false_ne_true)]
  have dropped := accounts.dropped
  have told := accounts.told
  have paired := accounts.paired
  have on_ : d.sent ++ (EventPhase.send b.kept).rest =
      (d.judged ++ [b]).flatMap EventBatch.kept := by
    rw [rest_send]
    exact sent
  unfold EventLoop.paused
  split
  next loses =>
    refine ⟨fun _ => on_, fun gone => absurd gone (send_ne_gone _), ?_, ?_, ?_, ?_⟩
    · change d.droppedWhilePaused + 1 = (sinceObserved (d.judged ++ [b])).countP EventBatch.loses
      rw [since, List.countP_append, List.countP_singleton, if_pos loses, dropped]
    · change (List.map _ (if _ then _ else _)).sum + (d.droppedWhilePaused + 1) =
        (d.judged ++ [b]).countP EventBatch.loses
      rw [List.countP_append, List.countP_singleton, if_pos loses]
      split
      next =>
        rw [List.map_append, List.sum_append]
        simp only [List.map_singleton, List.sum_singleton, EventLine.told]
        omega
      next => omega
    · change List.countP _ (if _ then _ else _) = List.countP _ (if _ then _ else _) +
        if 0 < d.droppedWhilePaused + 1 then 1 else 0
      rw [if_pos (Nat.zero_lt_succ _)]
      split
      next zero =>
        rw [if_neg (by omega)] at paired
        simpa [List.countP_append, EventLine.isDropping, EventLine.isResumed] using paired
      next some_ =>
        rw [if_pos (by omega)] at paired
        exact paired
    · intro n mem
      change _ ∈ (if _ then _ else _) at mem
      split at mem
      next =>
        rcases List.mem_append.mp mem with old | new
        · exact accounts.some_ n old
        · cases List.mem_singleton.mp new
      next => exact accounts.some_ n mem
  next whole =>
    have none_ : (if b.loses = true then 1 else 0) = 0 := if_neg whole
    refine ⟨fun _ => on_, fun gone => absurd gone (send_ne_gone _), ?_, ?_, paired, accounts.some_⟩
    · change d.droppedWhilePaused = (sinceObserved (d.judged ++ [b])).countP EventBatch.loses
      rw [since, List.countP_append, List.countP_singleton, none_]
      exact dropped
    · change _ = (d.judged ++ [b]).countP EventBatch.loses
      rw [List.countP_append, List.countP_singleton, none_]
      exact told

/-- A step that judges nothing: what was sent and is still to send stay one list. -/
theorem Accounts.move (accounts : d.Accounts) (same : d'.droppedWhilePaused = d.droppedWhilePaused)
    (judged : d'.judged = d.judged)
    (log : d'.log = d.log ∨ d'.log = d.log ++ [.ended]) (going : d.phase ≠ .consumerGone)
    (on_ : d'.phase ≠ .consumerGone → d'.sent ++ d'.phase.rest = d.sent ++ d.phase.rest)
    (gone : d'.phase = .consumerGone → d'.sent <+: d.sent ++ d.phase.rest) : d'.Accounts := by
  have sent := accounts.sent going
  refine ⟨fun there => ?_, fun there => ?_, ?_, ?_, ?_, ?_⟩
  · rw [judged, on_ there]
    exact sent
  · rw [judged, ← sent]
    exact gone there
  · rw [same, judged]
    exact accounts.dropped
  · rw [same, judged]
    rcases log with kept | ended
    · rw [kept]
      exact accounts.told
    · rw [ended, List.map_append, List.sum_append]
      exact accounts.told
  · rw [same]
    rcases log with kept | ended
    · rw [kept]
      exact accounts.paired
    · rw [ended, List.countP_append, List.countP_append]
      exact accounts.paired
  · intro n mem
    rcases log with kept | ended
    · exact accounts.some_ n (kept ▸ mem)
    · rw [ended] at mem
      rcases List.mem_append.mp mem with old | new
      · exact accounts.some_ n old
      · cases List.mem_singleton.mp new

theorem Accounts.step (accounts : d.Accounts) (stepped : d.step label = some d') :
    d'.Accounts := by
  unfold EventLoop.step at stepped
  split at stepped
  next b =>
    cases stepped
    exact ⟨accounts.sent, accounts.gone, accounts.dropped, accounts.told, accounts.paired,
      accounts.some_⟩
  next samples phase =>
    cases stepped
    have going : d.phase ≠ .consumerGone := by rw [phase]; nofun
    refine accounts.move rfl rfl (.inl rfl) going (fun _ => ?_) nofun
    rw [phase]
    rfl
  next phase =>
    cases stepped
    have going : d.phase ≠ .consumerGone := by rw [phase]; nofun
    refine accounts.move rfl rfl (.inr rfl) going (fun _ => ?_) nofun
    rw [phase]
    rfl
  next samples phase =>
    cases stepped
    have before : d.sent = d.judged.flatMap EventBatch.kept := by
      have whole := accounts.sent (by rw [phase]; nofun)
      rw [phase] at whole
      simpa [EventPhase.rest] using whole
    have after : d.sent ++ EventBatch.kept ⟨samples, d.observing⟩ =
        (d.judged ++ [(⟨samples, d.observing⟩ : EventBatch)]).flatMap EventBatch.kept := by
      rw [List.flatMap_append, before]
      simp
    cases observing : d.observing with
    | true =>
      rw [observing] at after
      exact accounts.observed rfl after
    | false =>
      rw [observing] at after
      exact accounts.paused rfl after
  next s rest phase =>
    cases stepped
    have going : d.phase ≠ .consumerGone := by rw [phase]; nofun
    refine accounts.move rfl rfl (.inl rfl) going (fun _ => ?_)
      (fun gone => absurd gone (send_ne_gone rest))
    rw [phase, rest_send, EventPhase.rest, List.append_assoc]
    rfl
  next s rest phase =>
    cases stepped
    have going : d.phase ≠ .consumerGone := by rw [phase]; nofun
    exact accounts.move rfl rfl (.inl rfl) going (fun other => absurd rfl other)
      (fun _ => List.prefix_append _ _)
  next => cases stepped

/-- Over every run of the loop beside pauses and resumes, what goes on is each batch whole if it met
the daemon observing and its listener brackets alone if not, in order; the batches that lost
something are told once each, those of a pause by the first batch behind it. -/
theorem event_batches_accounted {observing : Bool} {labels : List EventStep}
    (ran : runSteps EventLoop.step (start observing) labels = some d) : d.Accounts := by
  have begins : (start observing).Accounts :=
    ⟨fun _ => rfl, nofun, rfl, rfl, rfl, fun _ mem => absurd mem List.not_mem_nil⟩
  exact runSteps_invariant (fun _ _ _ stepped accounts => accounts.step stepped) ran begins

/-- Three route events, the second inside a pause. -/
def pausedBetween : List EventStep :=
  [.next (some [.route ⟨1, "route", none, "default route changed"⟩]), .judge, .send,
    .setObserving false, .next (some [.route ⟨2, "route", none, "default route changed"⟩]), .judge,
    .setObserving true, .next (some [.route ⟨3, "route", none, "default route changed"⟩]), .judge,
    .send]

theorem event_batches_accounted_paused : ∃ d,
    runSteps EventLoop.step (start true) pausedBetween = some d ∧
      (d.log.map EventLine.told).sum + d.droppedWhilePaused = 1 := by
  refine ⟨_, rfl, ?_⟩
  have ran : runSteps EventLoop.step (start true) pausedBetween = _ := rfl
  exact (event_batches_accounted ran).told

end EventLoop

end NetObserver
