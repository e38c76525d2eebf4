import NetObserver.SubscriptionThread

/-! What the event log was told, against what the subscription thread had to say. -/

namespace NetObserver

namespace SubscriptionThread

variable {Frame : Type*}

/-- Between the two halves of `bridge_send`. -/
def ThreadPc.midSend : ThreadPc Frame → Bool
  | sendMessage .. => true
  | _ => false

structure State.Told (s : State Frame) : Prop where
  balanced : s.bridge.receiver = true → s.bridge.Balanced
  current : s.bridge.receiver = true → s.pc.midSend = false → s.bridge.UpToDate

section

variable {s t : State Frame} {l : Label Frame}

theorem told_start (cap : Nat) : (start cap : State Frame).Told :=
  ⟨fun _ => Bridge.balanced_start cap, fun _ _ _ => rfl⟩

theorem State.Told.unsent (told : s.Told) (bridge : t.bridge = s.bridge)
    (mid : t.pc.midSend = s.pc.midSend ∨ s.pc.midSend = false) : t.Told := by
  constructor
  · rw [bridge]
    exact told.balanced
  · rw [bridge]
    intro live out
    refine told.current live ?_
    rcases mid with same | before
    · rw [← same]
      exact out
    · exact before

theorem State.Told.threadMove (told : s.Told) (moved : ThreadMove s t) : t.Told := by
  cases moved with
  | sendNote pc =>
    have receiver := s.bridge.sendNote_receiver
    constructor
    · intro live
      exact (told.balanced (receiver.symm.trans live)).sendNote
    · intro live mid
      have alive := Bridge.sendNote_alive (receiver.symm.trans live)
      dsimp only at mid
      rw [alive] at mid
      cases mid
  | @sendMessage m after pc =>
    have receiver := s.bridge.sendMessage_receiver m
    constructor
    · intro live
      have own := receiver.symm.trans live
      exact ((told.balanced own).sendMessage own m).1
    · intro live _
      have own := receiver.symm.trans live
      exact ((told.balanced own).sendMessage own m).2
  | check pc | armLock pc | armCheck pc | armClose pc | armRefuse pc | armStore pc | armUnlock pc
    | disarmLock pc | disarmClear pc | disarmUnlock pc | recheck pc | sleeping pc =>
    exact told.unsent rfl (.inr (by rw [pc]; rfl))

theorem State.Told.step (told : s.Told) (stepped : s.step l = some t) : t.Told := by
  cases move_of_step stepped with
  | go moved => exact told.threadMove moved
  | trip moved =>
    cases moved with
    | idle | locking | takes | takesNone | closing | unlocking => exact told.unsent rfl (.inl rfl)
  | subscribed pc | refused pc | deliver pc | finish pc =>
    exact told.unsent rfl (.inr (by rw [pc]; rfl))
  | push | hangUp => exact told.unsent rfl (.inl rfl)
  | @drain n =>
    exact ⟨fun live => (told.balanced live).drain n,
      fun live mid => (told.current live mid).drain n⟩
  | dropReceiver => exact ⟨(fun live => nomatch live), (fun live => nomatch live)⟩

theorem told_run {cap : Nat} {labels : List (Label Frame)}
    (ran : Runs.runSteps State.step (start cap) labels = some s) : s.Told :=
  Runs.runSteps_invariant (fun _ _ _ stepped told => told.step stepped) ran (told_start cap)

/-- Every message the thread tried to send was applied, is in the channel, or is counted; and once
nothing is left to tell, the log shows the link as the last of them had it. -/
theorem bridge_accounts {cap : Nat} {labels : List (Label Frame)}
    (ran : Runs.runSteps State.step (start cap) labels = some s)
    (live : s.bridge.receiver = true) :
    accounted s.bridge.received + accounted s.bridge.queue + s.bridge.dropped =
      s.bridge.offers.length ∧
    (s.bridge.queue = [] →
      (s.bridge.received.map Sent.frames).sum + (s.bridge.received.map Sent.reasons).sum +
        (s.bridge.received.map Sent.noted).sum + s.bridge.dropped = s.bridge.offers.length) ∧
    (s.bridge.queue = [] → s.bridge.dropped = 0 → s.pc.midSend = false →
      (s.bridge.log.offline.isSome = true ↔
        ∃ last, s.bridge.offers.getLast? = some last ∧ last.isOffline = true)) := by
  have told := told_run ran
  have balanced := told.balanced live
  refine ⟨balanced.balance, ?_, ?_⟩
  · intro empty
    have balance := balanced.balance
    rw [empty] at balance
    exact balance
  · intro empty none_ mid
    have last := told.current live mid none_
    rw [empty, List.append_nil] at last
    rw [balanced.shown, last]
    cases s.bridge.offers.getLast? with
    | none => simp
    | some m => simp [Sent.msg]

end

/-- With room for one message: the second is dropped, then told of, and the third dropped in turn. -/
def overflowing : List (Label Nat) :=
  [.go, .subscribe (.ok 1), .go, .go, .go, .go, .go, .go, .push 0 2, .deliver, .go, .go, .drain 1,
    .push 0 3, .deliver, .go, .go, .drain 1]

theorem bridge_accounts_overflowing : ∃ s : State Nat,
    Runs.runSteps State.step (start 1) overflowing = some s ∧ s.bridge.queue = [] ∧
    s.bridge.received.length = 2 ∧ s.bridge.dropped = 1 ∧
    (s.bridge.received.map Sent.frames).sum + (s.bridge.received.map Sent.reasons).sum +
      (s.bridge.received.map Sent.noted).sum + s.bridge.dropped = 3 := by
  have ran : Runs.runSteps State.step (start 1) overflowing = some _ := rfl
  exact ⟨_, ran, rfl, rfl, rfl, (bridge_accounts ran rfl).2.1 rfl⟩

end SubscriptionThread

end NetObserver
