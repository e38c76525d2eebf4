import Mathlib.Algebra.GroupWithZero.Nat
import Mathlib.Data.List.Induction

/-! The bounded channel between the subscription thread and the event log, and what the log shows
of the link. -/

namespace NetObserver

inductive BridgeMsg (Frame : Type*) where
  | frame (f : Frame)
  | offline (reason : String)

/-- What is in the channel, by what the sender means with it. -/
inductive Sent (Frame : Type*) where
  | message (m : BridgeMsg Frame)
  | note (dropped : Nat)

variable {Frame : Type*}

def BridgeMsg.isOffline : BridgeMsg Frame → Bool
  | frame _ => false
  | offline _ => true

namespace Sent

/-- To the receiver a note is an `offline` like any other. -/
def msg : Sent Frame → BridgeMsg Frame
  | message m => m
  | note dropped => .offline (dropped.repr ++ " events dropped (UI behind)")

def frames : Sent Frame → Nat
  | message (.frame _) => 1
  | _ => 0

def reasons : Sent Frame → Nat
  | message (.offline _) => 1
  | _ => 0

def noted : Sent Frame → Nat
  | note dropped => dropped
  | _ => 0

end Sent

/-- The offered messages that a list stands for. -/
def accounted (sent : List (Sent Frame)) : Nat :=
  (sent.map Sent.frames).sum + (sent.map Sent.reasons).sum + (sent.map Sent.noted).sum

/-- The model of the window, a row for each frame. -/
structure EventLog (Frame : Type*) where
  events : List Frame
  offline : Option String

namespace EventLog

def eventCap : Nat := 1000

def new : EventLog Frame := ⟨[], none⟩

def apply (log : EventLog Frame) : BridgeMsg Frame → EventLog Frame
  | .frame f =>
    ⟨(if log.events.length ≥ eventCap then log.events.tail else log.events) ++ [f], none⟩
  | .offline reason => { log with offline := some reason }

end EventLog

inductive TrySend where
  | ok
  | full
  | disconnected

/-- The channel, the thread's count of what it dropped and the log; `offers` are the messages that
the thread tried to send, `received` what was drained. -/
structure Bridge (Frame : Type*) where
  cap : Nat
  receiver : Bool
  queue : List (Sent Frame)
  dropped : Nat
  log : EventLog Frame
  offers : List (BridgeMsg Frame)
  received : List (Sent Frame)

namespace Bridge

def start (cap : Nat) : Bridge Frame := ⟨cap, true, [], 0, .new, [], []⟩

def trySend (b : Bridge Frame) (s : Sent Frame) : Bridge Frame × TrySend :=
  if !b.receiver then (b, .disconnected)
  else if b.queue.length < b.cap then ({ b with queue := b.queue ++ [s] }, .ok)
  else (b, .full)

/-- The first half of `bridge_send`: what was dropped is told of. `false` when the receiver is
gone. -/
def sendNote (b : Bridge Frame) : Bridge Frame × Bool :=
  if 0 < b.dropped then
    match b.trySend (.note b.dropped) with
    | (b, .ok) => ({ b with dropped := 0 }, true)
    | (b, .full) => (b, true)
    | (b, .disconnected) => (b, false)
  else (b, true)

/-- The second half: the message itself, dropped where it does not fit. -/
def sendMessage (b : Bridge Frame) (m : BridgeMsg Frame) : Bridge Frame × Bool :=
  match { b with offers := b.offers ++ [m] }.trySend (.message m) with
  | (b, .ok) => (b, true)
  | (b, .full) => ({ b with dropped := b.dropped + 1 }, true)
  | (b, .disconnected) => (b, false)

/-- The first `n` messages of the channel, applied to the log. -/
def drain (b : Bridge Frame) (n : Nat) : Bridge Frame :=
  { b with
    queue := b.queue.drop n
    log := (b.queue.take n).foldl (fun log s => log.apply s.msg) b.log
    received := b.received ++ b.queue.take n }

/-- Every offered message was applied or is in the channel, told of in a note or pending, and the log
stands at the last one applied. -/
structure Balanced (b : Bridge Frame) : Prop where
  balance : accounted b.received + accounted b.queue + b.dropped = b.offers.length
  shown : b.log.offline.isSome = b.received.getLast?.any fun s => s.msg.isOffline

/-- With nothing pending, the last message offered is the last one accepted. -/
def UpToDate (b : Bridge Frame) : Prop :=
  b.dropped = 0 → (b.received ++ b.queue).getLast? = b.offers.getLast?.map Sent.message

section

variable {b b' : Bridge Frame} {m : BridgeMsg Frame} {s : Sent Frame} {alive : Bool}

theorem accounted_append (xs ys : List (Sent Frame)) :
    accounted (xs ++ ys) = accounted xs + accounted ys := by
  unfold accounted
  simp only [List.map_append, List.sum_append]
  omega

theorem accounted_message (m : BridgeMsg Frame) : accounted [.message m] = 1 := by
  cases m with
  | frame f => rfl
  | offline reason => rfl

theorem accounted_note (n : Nat) : accounted [(.note n : Sent Frame)] = n := by
  change 0 + (n + 0) = n
  omega

theorem foldl_apply_offline (log : EventLog Frame) (sent : List (Sent Frame)) :
    (sent.foldl (fun log s => log.apply s.msg) log).offline.isSome =
      sent.getLast?.elim log.offline.isSome fun s => s.msg.isOffline := by
  induction sent using List.reverseRecOn with
  | nil => rfl
  | append_singleton front s ih =>
    rw [List.foldl_append, List.getLast?_concat]
    change (EventLog.apply _ s.msg).offline.isSome = s.msg.isOffline
    cases s.msg with
    | frame f => rfl
    | offline reason => rfl

theorem balanced_start (cap : Nat) : (start cap : Bridge Frame).Balanced := ⟨rfl, rfl⟩

theorem Balanced.drain (sound : b.Balanced) (n : Nat) : (b.drain n).Balanced := by
  constructor
  · change accounted (b.received ++ b.queue.take n) + accounted (b.queue.drop n) + b.dropped = _
    have balance := sound.balance
    have split := accounted_append (b.queue.take n) (b.queue.drop n)
    rw [List.take_append_drop] at split
    rw [accounted_append]
    change _ = b.offers.length
    omega
  · change ((b.queue.take n).foldl (fun log s => log.apply s.msg) b.log).offline.isSome =
      (b.received ++ b.queue.take n).getLast?.any fun s => s.msg.isOffline
    rw [foldl_apply_offline, sound.shown, List.getLast?_append]
    cases (b.queue.take n).getLast? with
    | none => rfl
    | some s => rfl

theorem UpToDate.drain (current : b.UpToDate) (n : Nat) : (b.drain n).UpToDate := by
  intro none_
  change ((b.received ++ b.queue.take n) ++ b.queue.drop n).getLast? = _
  rw [List.append_assoc, List.take_append_drop]
  exact current none_

theorem trySend_cases (b : Bridge Frame) (s : Sent Frame) :
    (b.receiver = false ∧ b.trySend s = (b, .disconnected)) ∨
    (b.receiver = true ∧ b.trySend s = ({ b with queue := b.queue ++ [s] }, .ok)) ∨
    (b.receiver = true ∧ b.trySend s = (b, .full)) := by
  unfold trySend
  cases b.receiver with
  | false => exact .inl ⟨rfl, rfl⟩
  | true =>
    by_cases room : b.queue.length < b.cap
    · exact .inr (.inl ⟨rfl, if_pos room⟩)
    · exact .inr (.inr ⟨rfl, if_neg room⟩)

theorem Balanced.sendNote (sound : b.Balanced) : b.sendNote.1.Balanced := by
  unfold Bridge.sendNote
  by_cases pending : 0 < b.dropped
  · rw [if_pos pending]
    rcases trySend_cases b (.note b.dropped) with ⟨-, sent⟩ | ⟨-, sent⟩ | ⟨-, sent⟩
    · rw [sent]
      exact sound
    · rw [sent]
      refine ⟨?_, sound.shown⟩
      have balance := sound.balance
      change accounted b.received + accounted (b.queue ++ [Sent.note b.dropped]) + 0 = b.offers.length
      rw [accounted_append, accounted_note]
      omega
    · rw [sent]
      exact sound
  · rw [if_neg pending]
    exact sound

theorem sendNote_receiver (b : Bridge Frame) : b.sendNote.1.receiver = b.receiver := by
  unfold Bridge.sendNote
  by_cases pending : 0 < b.dropped
  · rw [if_pos pending]
    rcases trySend_cases b (.note b.dropped) with ⟨-, sent⟩ | ⟨-, sent⟩ | ⟨-, sent⟩
    · rw [sent]
    · rw [sent]
    · rw [sent]
  · rw [if_neg pending]

theorem sendNote_alive (live : b.receiver = true) : b.sendNote.2 = true := by
  unfold Bridge.sendNote
  by_cases pending : 0 < b.dropped
  · rw [if_pos pending]
    rcases trySend_cases b (.note b.dropped) with ⟨gone, -⟩ | ⟨-, sent⟩ | ⟨-, sent⟩
    · rw [live] at gone
      cases gone
    · rw [sent]
    · rw [sent]
  · rw [if_neg pending]

theorem sendMessage_receiver (b : Bridge Frame) (m : BridgeMsg Frame) :
    (b.sendMessage m).1.receiver = b.receiver := by
  unfold Bridge.sendMessage
  rcases trySend_cases { b with offers := b.offers ++ [m] } (.message m) with
    ⟨-, sent⟩ | ⟨-, sent⟩ | ⟨-, sent⟩
  · rw [sent]
  · rw [sent]
  · rw [sent]

/-- A message that was tried is in the channel or pending. -/
theorem Balanced.sendMessage (sound : b.Balanced) (live : b.receiver = true) (m : BridgeMsg Frame) :
    (b.sendMessage m).1.Balanced ∧ (b.sendMessage m).1.UpToDate := by
  have balance := sound.balance
  unfold Bridge.sendMessage
  rcases trySend_cases { b with offers := b.offers ++ [m] } (.message m) with
    ⟨gone, -⟩ | ⟨-, sent⟩ | ⟨-, sent⟩
  · change b.receiver = false at gone
    rw [live] at gone
    cases gone
  · rw [sent]
    refine ⟨⟨?_, sound.shown⟩, fun _ => ?_⟩
    · change accounted b.received + accounted (b.queue ++ [Sent.message m]) + b.dropped =
        (b.offers ++ [m]).length
      rw [accounted_append, accounted_message, List.length_append, List.length_singleton]
      omega
    · change (b.received ++ (b.queue ++ [Sent.message m])).getLast? = (b.offers ++ [m]).getLast?.map _
      rw [← List.append_assoc, List.getLast?_concat, List.getLast?_concat]
      rfl
  · rw [sent]
    refine ⟨⟨?_, sound.shown⟩, fun none_ => nomatch none_⟩
    change accounted b.received + accounted b.queue + (b.dropped + 1) = (b.offers ++ [m]).length
    rw [List.length_append, List.length_singleton]
    omega

end

end Bridge

end NetObserver
