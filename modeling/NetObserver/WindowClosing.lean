import NetObserver.SubscriptionThread

/-! The closing of the event window ends its subscription thread, wherever it catches it. -/

namespace NetObserver

namespace SubscriptionThread

variable {Frame : Type*}

namespace ThreadPc

def holdsLock : ThreadPc Frame → Bool
  | armCheck .. | armClose _ | armRefuse | armStore .. | armUnlock .. => true
  | disarmClear _ | disarmUnlock _ => true
  | _ => false

def isStoring : ThreadPc Frame → Bool
  | armStore .. => true
  | _ => false

/-- The socket whose stream the thread is reading, or is to read next. -/
def stream : ThreadPc Frame → Option Nat
  | armUnlock sock _ => some sock
  | sendNote _ (.reading sock) | sendMessage _ (.reading sock) => some sock
  | reading sock => some sock
  | _ => none

/-- In a `subscribe`, past the last look at the flag. -/
def connects : ThreadPc Frame → Nat
  | subscribing => 1
  | _ => 0

/-- How many steps are left to the thread once the window is closed, apart from the frames still to
be read. -/
def base : ThreadPc Frame → Nat
  | done => 0
  | check | recheck | armRefuse => 1
  | sleeping | armClose _ => 2
  | armCheck .. => 3
  | armLock .. => 4
  | subscribing => 5
  | sendMessage _ .recheck => 2
  | sendNote _ .recheck => 3
  | disarmUnlock _ => 4
  | disarmClear _ => 5
  | disarmLock _ => 6
  | reading _ => 7
  | sendMessage _ (.reading _) => 8
  | sendNote _ (.reading _) => 9
  | armUnlock .. => 10
  | armStore .. => 11

end ThreadPc

namespace TripPc

def isIdle : TripPc → Bool
  | idle => true
  | _ => false

def holdsLock : TripPc → Bool
  | taking | closing _ | unlocking => true
  | _ => false

/-- Not yet in possession of the lock. -/
def waits : TripPc → Bool
  | idle | locking => true
  | _ => false

/-- Past the taking of the handle. -/
def took : TripPc → Bool
  | closing _ | unlocking | returned => true
  | _ => false

def handle : TripPc → Option Nat
  | closing sock => some sock
  | _ => none

end TripPc

namespace State

/-- What holds of the two at every moment: a stream that is read has its handle in the slot, in the
hands of `trip`, or was closed. -/
structure Sound (s : State Frame) : Prop where
  threadLock : s.pc.holdsLock = true ↔ s.lock = some .thread
  windowLock : s.trip.holdsLock = true ↔ s.lock = some .window
  flag : s.stop = !s.trip.isIdle
  storing : s.pc.isStoring = true → s.trip.waits = true
  taken : s.trip.took = true → s.slot = none
  held : ∀ sock, s.pc.stream = some sock →
    s.slot = some sock ∨ s.trip.handle = some sock ∨ (s.sockets sock).shut = true

/-- The frames still to be read. -/
def backlog (s : State Frame) : Nat :=
  s.pc.stream.elim 0 fun sock => (s.sockets sock).inbox.length

def rank (s : State Frame) : Nat := s.pc.base + 3 * s.backlog

end State

section

variable {s t : State Frame} {l : Label Frame} {pc : ThreadPc Frame}

theorem sound_start (cap : Nat) : (start cap : State Frame).Sound where
  threadLock := by simp [start, ThreadPc.holdsLock]
  windowLock := by simp [start, TripPc.holdsLock]
  flag := rfl
  storing := by simp [start, ThreadPc.isStoring]
  taken := by simp [start]
  held := by simp [start, ThreadPc.stream]

theorem not_storing (out : pc.holdsLock = false) : ¬ pc.isStoring = true := by
  intro storing
  cases pc with
  | armStore sock ready => cases out
  | _ => cases storing

theorem stream_if {alive : Bool} {sock : Nat}
    (live : (if alive then pc else .done).stream = some sock) : pc.stream = some sock := by
  cases alive with
  | false => cases live
  | true => exact live

theorem After.stream_sendNote {after : After} {m : BridgeMsg Frame} :
    (ThreadPc.sendNote m after).stream = (ThreadPc.sendMessage m after).stream := by
  cases after <;> rfl

theorem After.stream_pc {after : After} {m : BridgeMsg Frame} :
    (after.pc : ThreadPc Frame).stream = (ThreadPc.sendMessage m after).stream := by
  cases after <;> rfl

theorem State.shutSocket_shut (s : State Frame) (sock k : Nat)
    (shut : (s.sockets k).shut = true ∨ k = sock) : ((s.shutSocket sock).sockets k).shut = true := by
  unfold State.shutSocket
  dsimp only
  by_cases same : k = sock
  · rw [same, Function.update_self]
  · rw [Function.update_of_ne same]
    exact shut.resolve_right same

/-- What the daemon does to a socket, and what the thread reads of it, does not close it. -/
theorem update_shut (sockets : Nat → Socket Frame) {sock : Nat} {socket : Socket Frame}
    (same : socket.shut = (sockets sock).shut) (k : Nat) :
    (Function.update sockets sock socket k).shut = (sockets k).shut := by
  by_cases own : k = sock
  · rw [own, Function.update_self, same]
  · rw [Function.update_of_ne own]

namespace State.Sound

variable (sound : s.Sound)

include sound

/-- A party that is in its critical section keeps the other one out of its own. -/
theorem window_out (holds : s.pc.holdsLock = true) : s.trip.holdsLock = false := by
  have own := sound.threadLock.mp holds
  cases eq : s.trip.holdsLock with
  | false => rfl
  | true =>
    rw [sound.windowLock.mp eq] at own
    cases own

theorem thread_out (holds : s.trip.holdsLock = true) : s.pc.holdsLock = false := by
  have own := sound.windowLock.mp holds
  cases eq : s.pc.holdsLock with
  | false => rfl
  | true =>
    rw [sound.threadLock.mp eq] at own
    cases own

/-- The thread goes on without a word to the other party. -/
theorem goesOn (b : Bridge Frame) (lock : pc.holdsLock = s.pc.holdsLock)
    (storing : pc.isStoring = true → s.trip.waits = true)
    (stream : ∀ sock, pc.stream = some sock → s.pc.stream = some sock) :
    { s with pc := pc, bridge := b }.Sound where
  threadLock := by
    rw [← sound.threadLock, lock]
  windowLock := sound.windowLock
  flag := sound.flag
  storing := storing
  taken := sound.taken
  held sock live := sound.held sock (stream sock live)

theorem acquires (free : s.lock = none) (lock : pc.holdsLock = true) (storing : pc.isStoring = false)
    (stream : pc.stream = none) : { s with lock := some .thread, pc := pc }.Sound where
  threadLock := ⟨fun _ => rfl, fun _ => lock⟩
  windowLock := by
    have window := sound.windowLock
    rw [free] at window
    exact ⟨fun holds => absurd (window.mp holds) (fun h => nomatch h), (fun h => nomatch h)⟩
  flag := sound.flag
  storing stores := by
    rw [storing] at stores
    cases stores
  taken := sound.taken
  held sock live := by
    rw [stream] at live
    cases live

theorem releases (holds : s.pc.holdsLock = true) (lock : pc.holdsLock = false)
    (storing : pc.isStoring = false)
    (stream : ∀ sock, pc.stream = some sock → s.pc.stream = some sock) :
    { s with lock := none, pc := pc }.Sound where
  threadLock := by
    rw [lock]
    exact ⟨(fun h => nomatch h), (fun h => nomatch h)⟩
  windowLock := by
    rw [sound.window_out holds]
    exact ⟨(fun h => nomatch h), (fun h => nomatch h)⟩
  flag := sound.flag
  storing stores := by
    rw [storing] at stores
    cases stores
  taken := sound.taken
  held sock live := sound.held sock (stream sock live)

/-- The slot is emptied, with a socket closed or not, by a thread that reads none. -/
theorem clears {sockets : Nat → Socket Frame} (lock : pc.holdsLock = s.pc.holdsLock)
    (storing : pc.isStoring = false) (stream : pc.stream = none) :
    { s with slot := none, sockets := sockets, pc := pc }.Sound where
  threadLock := by
    rw [← sound.threadLock, lock]
  windowLock := sound.windowLock
  flag := sound.flag
  storing stores := by
    rw [storing] at stores
    cases stores
  taken _ := rfl
  held sock live := by
    rw [stream] at live
    cases live

theorem threadMove (moved : ThreadMove s t) : t.Sound := by
  have flag := sound.flag
  cases moved with
  | check pc | recheck pc =>
    refine sound.goesOn s.bridge ?_ ?_ ?_
    · rw [pc]
      cases s.stop <;> rfl
    · cases s.stop <;> exact (fun h => nomatch h)
    · cases s.stop <;> exact (fun _ h => nomatch h)
  | armLock pc free | disarmLock pc free => exact sound.acquires free rfl rfl rfl
  | armCheck pc =>
    refine sound.goesOn s.bridge ?_ ?_ ?_
    · rw [pc]
      cases s.stop <;> rfl
    · -- the flag is read under the lock: while it is down, the window has not come to its own
      cases stop : s.stop with
      | true => exact fun h => nomatch h
      | false =>
        intro _
        rw [stop] at flag
        cases trip : s.trip with
        | idle => rfl
        | _ =>
          rw [trip] at flag
          cases flag
    · cases s.stop <;> exact (fun _ h => nomatch h)
  | armClose pc | disarmClear pc => exact sound.clears (by rw [pc]; rfl) rfl rfl
  | armRefuse pc | disarmUnlock pc =>
    exact sound.releases (by rw [pc]; rfl) rfl rfl fun _ h => nomatch h
  | armStore pc =>
    have own := sound.threadLock
    have waits := sound.storing (by rw [pc]; rfl)
    rw [pc] at own
    refine ⟨own, sound.windowLock, flag, (fun h => nomatch h), ?_, fun _ live => .inl live⟩
    intro took
    change s.trip.took = true at took
    cases trip : s.trip with
    | idle | locking =>
      rw [trip] at took
      cases took
    | _ =>
      rw [trip] at waits
      cases waits
  | armUnlock pc =>
    refine sound.releases (by rw [pc]; rfl) rfl rfl fun sock live => ?_
    rw [pc]
    exact live
  | sendNote pc =>
    refine sound.goesOn _ ?_ ?_ ?_
    · rw [pc]
      cases s.bridge.sendNote.2 <;> rfl
    · cases s.bridge.sendNote.2 <;> exact (fun h => nomatch h)
    · rw [pc]
      exact fun sock live => After.stream_sendNote.trans (stream_if live)
  | @sendMessage m after pc =>
    refine sound.goesOn _ ?_ ?_ ?_
    · rw [pc]
      cases (s.bridge.sendMessage m).2 <;> cases after <;> rfl
    · cases (s.bridge.sendMessage m).2 <;> cases after <;> exact (fun h => nomatch h)
    · rw [pc]
      exact fun sock live => After.stream_pc.symm.trans (stream_if live)
  | sleeping pc =>
    refine sound.goesOn s.bridge ?_ (fun h => nomatch h) (fun _ h => nomatch h)
    rw [pc]
    rfl

theorem tripMove (moved : TripMove s t) : t.Sound := by
  have window := sound.windowLock
  have storing := sound.storing
  have taken := sound.taken
  have held := sound.held
  have flag := sound.flag
  cases moved with
  | idle trip =>
    rw [trip] at window storing held
    exact ⟨sound.threadLock, window, rfl, fun _ => rfl, (fun h => nomatch h), held⟩
  | locking trip free =>
    have out : s.pc.holdsLock = false := by
      cases eq : s.pc.holdsLock with
      | false => rfl
      | true =>
        have own := sound.threadLock.mp eq
        rw [free] at own
        cases own
    rw [trip] at held flag
    refine ⟨?_, ⟨fun _ => rfl, fun _ => rfl⟩, flag, ?_, (fun h => nomatch h), held⟩
    · change s.pc.holdsLock = true ↔ _
      rw [out]
      exact ⟨(fun h => nomatch h), (fun h => nomatch h)⟩
    · exact fun stores => absurd stores (not_storing out)
  | takes trip slot =>
    have out := sound.thread_out (by rw [trip]; rfl)
    rw [trip] at window held flag
    refine ⟨sound.threadLock, window, flag, fun stores => absurd stores (not_storing out),
      fun _ => rfl, ?_⟩
    intro k live
    rcases held k live with own | hand | shut
    · rw [slot] at own
      exact .inr (.inl own)
    · cases hand
    · exact .inr (.inr shut)
  | takesNone trip slot =>
    have out := sound.thread_out (by rw [trip]; rfl)
    rw [trip] at window held flag
    exact ⟨sound.threadLock, window, flag, fun stores => absurd stores (not_storing out),
      fun _ => slot, held⟩
  | @closing sock trip =>
    have out := sound.thread_out (by rw [trip]; rfl)
    rw [trip] at window held flag taken
    refine ⟨sound.threadLock, window, flag, fun stores => absurd stores (not_storing out), taken, ?_⟩
    intro k live
    rcases held k live with own | hand | shut
    · exact .inl own
    · exact .inr (.inr (s.shutSocket_shut sock k (.inr (Option.some.inj hand).symm)))
    · exact .inr (.inr (s.shutSocket_shut sock k (.inl shut)))
  | unlocking trip =>
    have out := sound.thread_out (by rw [trip]; rfl)
    rw [trip] at held flag taken
    refine ⟨?_, ⟨(fun h => nomatch h), (fun h => nomatch h)⟩, flag,
      fun stores => absurd stores (not_storing out), taken, held⟩
    change s.pc.holdsLock = true ↔ _
    rw [out]
    exact ⟨(fun h => nomatch h), (fun h => nomatch h)⟩

theorem traffic {sockets : Nat → Socket Frame}
    (shut : ∀ k, (s.sockets k).shut = true → (sockets k).shut = true) :
    { s with sockets := sockets }.Sound where
  threadLock := sound.threadLock
  windowLock := sound.windowLock
  flag := sound.flag
  storing := sound.storing
  taken := sound.taken
  held k live := (sound.held k live).imp_right fun h => h.imp_right (shut k)

theorem step (stepped : s.step l = some t) : t.Sound := by
  cases move_of_step stepped with
  | go moved => exact sound.threadMove moved
  | trip moved => exact sound.tripMove moved
  | subscribed pc =>
    have own := sound.threadLock
    rw [pc] at own
    exact ⟨own, sound.windowLock, sound.flag, (fun h => nomatch h), sound.taken,
      fun _ h => nomatch h⟩
  | refused pc =>
    refine sound.goesOn s.bridge ?_ (fun h => nomatch h) (fun _ h => nomatch h)
    rw [pc]
    rfl
  | @deliver sock f rest pc inbox =>
    have moved : { s with pc := .sendNote (.frame f) (.reading sock) }.Sound := by
      refine sound.goesOn s.bridge ?_ (fun h => nomatch h) fun k live => ?_
      · rw [pc]
        rfl
      · rw [pc]
        exact live
    refine moved.traffic fun k shut => Eq.trans (update_shut s.sockets ?_ k) shut
    rfl
  | finish pc =>
    refine sound.goesOn s.bridge ?_ (fun h => nomatch h) (fun _ h => nomatch h)
    rw [pc]
    rfl
  | push arrives =>
    refine sound.traffic fun k shut => Eq.trans (update_shut s.sockets ?_ k) shut
    rfl
  | hangUp =>
    refine sound.traffic fun k shut => Eq.trans (update_shut s.sockets ?_ k) shut
    rfl
  | drain | dropReceiver => exact sound.goesOn _ rfl sound.storing fun _ live => live

/-- After `trip` every stream that is still read was closed. -/
theorem stream_shut (returned : s.trip = .returned) {sock : Nat}
    (live : s.pc.stream = some sock) : (s.sockets sock).shut = true := by
  have taken := sound.taken (by rw [returned]; rfl)
  rcases sound.held sock live with own | hand | shut
  · rw [taken] at own
    cases own
  · rw [returned] at hand
    cases hand
  · exact shut

theorem stopped (returned : s.trip = .returned) : s.stop = true := by
  rw [sound.flag, returned]
  rfl

end State.Sound

theorem sound_run {cap : Nat} {labels : List (Label Frame)}
    (ran : Runs.runSteps State.step (start cap) labels = some s) : s.Sound :=
  Runs.runSteps_invariant (fun _ _ _ stepped sound => sound.step stepped) ran (sound_start cap)

theorem backlog_le (same : ∀ sock, t.pc.stream = some sock →
      s.pc.stream = some sock ∧ (t.sockets sock).inbox.length ≤ (s.sockets sock).inbox.length) :
    t.backlog ≤ s.backlog := by
  unfold State.backlog
  cases live : t.pc.stream with
  | none => exact Nat.zero_le _
  | some sock =>
    obtain ⟨own, inbox⟩ := same sock live
    rw [own]
    exact inbox

theorem rank_lt (base : t.pc.base < s.pc.base) (sockets : t.sockets = s.sockets)
    (stream : ∀ sock, t.pc.stream = some sock → s.pc.stream = some sock) : t.rank + 1 ≤ s.rank := by
  have backlog := backlog_le fun sock live => ⟨stream sock live, Nat.le_of_eq (by rw [sockets])⟩
  unfold State.rank
  omega

theorem base_sendNote (m : BridgeMsg Frame) (after : After) (alive : Bool) :
    (if alive then ThreadPc.sendMessage m after else .done).base <
      (ThreadPc.sendNote m after).base := by
  cases alive <;> cases after <;> simp [ThreadPc.base]

theorem base_sendMessage (m : BridgeMsg Frame) (after : After) (alive : Bool) :
    (if alive then (after.pc : ThreadPc Frame) else .done).base <
      (ThreadPc.sendMessage m after).base := by
  cases alive <;> cases after <;> simp [ThreadPc.base, After.pc]

/-- Each step of its own brings the thread nearer to its end. -/
theorem rank_threadMove (sound : s.Sound) (returned : s.trip = .returned) (moved : ThreadMove s t) :
    t.trip = .returned ∧ t.rank + 1 ≤ s.rank := by
  have stop := sound.stopped returned
  cases moved with
  | armStore pc =>
    have waits := sound.storing (by rw [pc]; rfl)
    rw [returned] at waits
    cases waits
  | armClose pc =>
    refine ⟨returned, ?_⟩
    unfold State.rank State.backlog
    rw [pc]
    exact Nat.le_refl 2
  | sendNote pc =>
    refine ⟨returned, rank_lt ?_ rfl ?_⟩
    · rw [pc]
      exact base_sendNote _ _ _
    · rw [pc]
      exact fun sock live => After.stream_sendNote.trans (stream_if live)
  | sendMessage pc =>
    refine ⟨returned, rank_lt ?_ rfl ?_⟩
    · rw [pc]
      exact base_sendMessage _ _ _
    · rw [pc]
      exact fun sock live => After.stream_pc.symm.trans (stream_if live)
  | armUnlock pc =>
    refine ⟨returned, rank_lt ?_ rfl ?_⟩
    · rw [pc]
      exact Nat.lt_succ_self _
    · rw [pc]
      exact fun _ live => live
  | check pc | armCheck pc | recheck pc =>
    rw [stop]
    refine ⟨returned, rank_lt ?_ rfl fun _ h => nomatch h⟩
    rw [pc]
    exact Nat.lt_succ_self _
  | armLock pc | armRefuse pc | disarmLock pc | disarmClear pc | disarmUnlock pc | sleeping pc =>
    refine ⟨returned, rank_lt ?_ rfl fun _ h => nomatch h⟩
    rw [pc]
    exact Nat.lt_succ_self _

theorem rank_step (sound : s.Sound) (returned : s.trip = .returned) (stepped : s.step l = some t) :
    t.trip = .returned ∧ t.rank + (if l.byThread then 1 else 0) ≤ s.rank := by
  cases move_of_step stepped with
  | go moved => exact rank_threadMove sound returned moved
  | trip moved =>
    cases moved with
    | idle trip | locking trip | takes trip | takesNone trip | closing trip | unlocking trip =>
      rw [returned] at trip
      cases trip
  | subscribed pc =>
    refine ⟨returned, ?_⟩
    unfold State.rank State.backlog
    rw [pc]
    exact Nat.le_refl 5
  | refused pc =>
    refine ⟨returned, rank_lt ?_ rfl fun _ h => nomatch h⟩
    rw [pc]
    change 3 < 5
    omega
  | @deliver sock f rest pc inbox =>
    refine ⟨returned, ?_⟩
    unfold State.rank State.backlog
    rw [pc]
    change 9 + 3 * (Function.update s.sockets sock _ sock).inbox.length + 1 ≤
      7 + 3 * (s.sockets sock).inbox.length
    rw [Function.update_self, inbox, List.length_cons]
    dsimp only
    omega
  | finish pc =>
    refine ⟨returned, rank_lt ?_ rfl fun _ h => nomatch h⟩
    rw [pc]
    exact Nat.lt_succ_self _
  | @push sock f arrives =>
    refine ⟨returned, Nat.add_le_add_left (Nat.mul_le_mul_left 3 (backlog_le ?_)) _⟩
    intro k live
    -- nothing arrives at a socket that was closed
    have other : k ≠ sock := by
      intro same
      have shut := sound.stream_shut returned live
      rw [same, arrives] at shut
      cases shut
    refine ⟨live, ?_⟩
    dsimp only
    exact Nat.le_of_eq (by rw [Function.update_of_ne other])
  | @hangUp sock =>
    refine ⟨returned, Nat.add_le_add_left (Nat.mul_le_mul_left 3 (backlog_le ?_)) _⟩
    intro k live
    refine ⟨live, ?_⟩
    dsimp only
    by_cases own : k = sock
    · exact Nat.le_of_eq (by rw [own, Function.update_self])
    · exact Nat.le_of_eq (by rw [Function.update_of_ne own])
  | drain | dropReceiver => exact ⟨returned, Nat.le_refl _⟩

/-- Whatever else happens, the thread has only so many steps left. -/
theorem rank_run {labels : List (Label Frame)} (sound : s.Sound) (returned : s.trip = .returned)
    (ran : Runs.runSteps State.step s labels = some t) :
    t.trip = .returned ∧ t.rank + labels.countP Label.byThread ≤ s.rank := by
  induction labels generalizing s with
  | nil =>
    cases ran
    exact ⟨returned, Nat.le_refl _⟩
  | cons l labels ih =>
    obtain ⟨m, stepped, rest⟩ := Runs.runSteps_cons_eq_some.mp ran
    obtain ⟨still, first⟩ := rank_step sound returned stepped
    obtain ⟨last, later⟩ := ih (sound.step stepped) still rest
    refine ⟨last, ?_⟩
    rw [List.countP_cons]
    omega

/-- And until it is done it is not stuck. -/
theorem thread_moves (sound : s.Sound) (returned : s.trip = .returned) (running : s.pc ≠ .done) :
    ∃ l : Label Frame, l.byThread = true ∧ (s.step l).isSome = true := by
  have free (out : s.pc.holdsLock = false) : s.lock = none := by
    cases lock : s.lock with
    | none => rfl
    | some p =>
      cases p with
      | thread =>
        rw [sound.threadLock.mpr lock] at out
        cases out
      | window =>
        have holds := sound.windowLock.mpr lock
        rw [returned] at holds
        cases holds
  cases pc : s.pc with
  | done => exact absurd pc running
  | subscribing =>
    refine ⟨.subscribe (.error ""), rfl, ?_⟩
    unfold State.step
    rw [pc]
    rfl
  | reading sock =>
    have shut := sound.stream_shut returned (by rw [pc]; rfl)
    refine ⟨.finish none, rfl, ?_⟩
    unfold State.step
    rw [pc]
    dsimp only
    rw [if_pos (.inl shut)]
    rfl
  | armLock sock ready | disarmLock reason =>
    refine ⟨.go, rfl, ?_⟩
    unfold State.step State.threadStep State.acquire
    rw [pc, free (by rw [pc]; rfl)]
    rfl
  | _ =>
    refine ⟨.go, rfl, ?_⟩
    unfold State.step State.threadStep
    rw [pc]
    rfl

theorem connects_threadMove (stop : s.stop = true) (moved : ThreadMove s t) :
    t.stop = true ∧ t.pc.connects = 0 := by
  cases moved with
  | check | armCheck | recheck =>
    rw [stop]
    exact ⟨rfl, rfl⟩
  | sendNote pc =>
    refine ⟨stop, ?_⟩
    cases s.bridge.sendNote.2 <;> rfl
  | @sendMessage m after pc =>
    refine ⟨stop, ?_⟩
    cases (s.bridge.sendMessage m).2 <;> cases after <;> rfl
  | armLock | armClose | armRefuse | armStore | armUnlock | disarmLock | disarmClear
    | disarmUnlock | sleeping => exact ⟨stop, rfl⟩

/-- With the flag up, only a `subscribe` that is under way already is still made. -/
theorem connects_step (stop : s.stop = true) (stepped : s.step l = some t) :
    t.stop = true ∧ t.pc.connects + (if l.isSubscribe then 1 else 0) ≤ s.pc.connects := by
  cases move_of_step stepped with
  | go moved =>
    obtain ⟨still, none_⟩ := connects_threadMove stop moved
    refine ⟨still, ?_⟩
    rw [none_]
    exact Nat.zero_le _
  | trip moved =>
    cases moved with
    | idle => exact ⟨rfl, Nat.le_refl _⟩
    | locking | takes | takesNone | closing | unlocking => exact ⟨stop, Nat.le_refl _⟩
  | subscribed pc | refused pc =>
    rw [pc]
    exact ⟨stop, Nat.le_refl 1⟩
  | deliver | finish => exact ⟨stop, Nat.zero_le _⟩
  | push | hangUp | drain | dropReceiver => exact ⟨stop, Nat.le_refl _⟩

theorem connects_run {labels : List (Label Frame)} (stop : s.stop = true)
    (ran : Runs.runSteps State.step s labels = some t) :
    labels.countP Label.isSubscribe ≤ s.pc.connects := by
  induction labels generalizing s with
  | nil => exact Nat.zero_le _
  | cons l labels ih =>
    obtain ⟨m, stepped, rest⟩ := Runs.runSteps_cons_eq_some.mp ran
    obtain ⟨still, first⟩ := connects_step stop stepped
    have later := ih still rest
    rw [List.countP_cons]
    omega

/-- Closing the window ends the thread: what it blocks on was closed, the slot is empty, it does not
subscribe again, and it is done after a bounded number of steps of its own, none of which it has to
wait for. -/
theorem trip_ends_thread {cap : Nat} {past : List (Label Frame)}
    (ran : Runs.runSteps State.step (start cap) past = some s) :
    (s.stop = true → ∀ more t, Runs.runSteps State.step s more = some t →
      more.countP Label.isSubscribe ≤ s.pc.connects) ∧
    (s.trip = .returned →
      (∀ sock, s.pc = .reading sock → (s.sockets sock).shut = true) ∧ s.slot = none ∧
      ∀ more t, Runs.runSteps State.step s more = some t →
        more.countP Label.byThread + t.rank ≤ s.rank ∧
        (t.pc ≠ .done → ∃ l : Label Frame, l.byThread = true ∧ (t.step l).isSome = true)) := by
  have sound := sound_run ran
  refine ⟨fun stop more t later => connects_run stop later, fun returned => ⟨?_, ?_, ?_⟩⟩
  · intro sock pc
    exact sound.stream_shut returned (by rw [pc]; rfl)
  · exact sound.taken (by rw [returned]; rfl)
  · intro more t later
    obtain ⟨still, bound⟩ := rank_run sound returned later
    have last : t.Sound :=
      Runs.runSteps_invariant (fun _ _ _ stepped sound => sound.step stepped) later sound
    exact ⟨by omega, thread_moves last still⟩

end

/-- The window is closed while the thread waits for the next frame. -/
def closedWhileReading : List (Label Nat) :=
  [.go, .subscribe (.ok 7), .go, .go, .go, .go, .go, .go, .trip, .trip, .trip, .trip, .trip]

theorem trip_ends_thread_reading : ∃ s : State Nat,
    Runs.runSteps State.step (start 2) closedWhileReading = some s ∧
    s.pc = .reading 0 ∧ s.trip = .returned ∧ (s.sockets 0).shut = true := by
  have ran : Runs.runSteps State.step (start 2) closedWhileReading = some _ := rfl
  exact ⟨_, ran, rfl, rfl, ((trip_ends_thread ran).2 rfl).1 0 rfl⟩

end SubscriptionThread

end NetObserver
