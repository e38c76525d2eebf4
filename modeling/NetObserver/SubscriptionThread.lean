import Mathlib.Logic.Function.Basic
import NetObserver.EventBridge
import NetObserver.Runs

/-! The subscription thread of the event window against the closing of the window: their flag, the
slot of the live socket's handle and its lock, with the daemon and the drain at any moment. -/

namespace NetObserver

namespace SubscriptionThread

/-- `inbox` is what the daemon has sent and the thread has not read, `shut` that a handle closed
it. -/
structure Socket (Frame : Type*) where
  inbox : List Frame
  ended : Bool
  shut : Bool

/-- Where the caller of `bridge_send` goes on. -/
inductive After where
  | reading (sock : Nat)
  | recheck

/-- The thread, by what it is about to do; `arm` and `disarm` step by step. -/
inductive ThreadPc (Frame : Type*) where
  | check
  | subscribing
  | armLock (sock : Nat) (ready : Frame)
  | armCheck (sock : Nat) (ready : Frame)
  | armClose (sock : Nat)
  | armRefuse
  | armStore (sock : Nat) (ready : Frame)
  | armUnlock (sock : Nat) (ready : Frame)
  | sendNote (m : BridgeMsg Frame) (after : After)
  | sendMessage (m : BridgeMsg Frame) (after : After)
  | reading (sock : Nat)
  | disarmLock (reason : String)
  | disarmClear (reason : String)
  | disarmUnlock (reason : String)
  | recheck
  | sleeping
  | done

inductive TripPc where
  | idle
  | locking
  | taking
  | closing (sock : Nat)
  | unlocking
  | returned

inductive Party where
  | thread
  | window

variable {Frame : Type*}

structure State (Frame : Type*) where
  stop : Bool
  slot : Option Nat
  lock : Option Party
  trip : TripPc
  pc : ThreadPc Frame
  opened : Nat
  sockets : Nat → Socket Frame
  bridge : Bridge Frame

def start (cap : Nat) : State Frame where
  stop := false
  slot := none
  lock := none
  trip := .idle
  pc := .check
  opened := 0
  sockets := fun _ => ⟨[], false, false⟩
  bridge := .start cap

inductive Label (Frame : Type*) where
  | go
  | subscribe (outcome : Except String Frame)
  | deliver
  | finish (error : Option String)
  | trip
  | push (sock : Nat) (f : Frame)
  | hangUp (sock : Nat)
  | drain (n : Nat)
  | dropReceiver

namespace Label

def byThread : Label Frame → Bool
  | go | subscribe _ | deliver | finish _ => true
  | _ => false

def isSubscribe : Label Frame → Bool
  | subscribe _ => true
  | _ => false

end Label

def After.pc : After → ThreadPc Frame
  | .reading sock => .reading sock
  | .recheck => .recheck

/-- Why the stream ended: an error of it, or the daemon's close. -/
def endReason (error : Option String) : String :=
  error.elim "connection closed" ("stream error: " ++ ·)

namespace State

def acquire (s : State Frame) (p : Party) : Option (State Frame) :=
  match s.lock with
  | none => some { s with lock := some p }
  | some _ => none

def shutSocket (s : State Frame) (sock : Nat) : State Frame :=
  { s with sockets := Function.update s.sockets sock { s.sockets sock with shut := true } }

/-- A step of the thread that nobody else decides. -/
def threadStep (s : State Frame) : Option (State Frame) :=
  match s.pc with
  | .check => some { s with pc := if s.stop then .done else .subscribing }
  | .subscribing => none
  | .armLock sock ready => (s.acquire .thread).map ({ · with pc := .armCheck sock ready })
  | .armCheck sock ready =>
    some { s with pc := if s.stop then .armClose sock else .armStore sock ready }
  | .armClose sock => some { s.shutSocket sock with slot := none, pc := .armRefuse }
  | .armRefuse => some { s with lock := none, pc := .done }
  | .armStore sock ready => some { s with slot := some sock, pc := .armUnlock sock ready }
  | .armUnlock sock ready =>
    some { s with lock := none, pc := .sendNote (.frame ready) (.reading sock) }
  | .sendNote m after =>
    some { s with bridge := s.bridge.sendNote.1
                  pc := if s.bridge.sendNote.2 then .sendMessage m after else .done }
  | .sendMessage m after =>
    some { s with bridge := (s.bridge.sendMessage m).1
                  pc := if (s.bridge.sendMessage m).2 then after.pc else .done }
  | .reading _ => none
  | .disarmLock reason => (s.acquire .thread).map ({ · with pc := .disarmClear reason })
  | .disarmClear reason => some { s with slot := none, pc := .disarmUnlock reason }
  | .disarmUnlock reason => some { s with lock := none, pc := .sendNote (.offline reason) .recheck }
  | .recheck => some { s with pc := if s.stop then .done else .sleeping }
  | .sleeping => some { s with pc := .check }
  | .done => none

/-- The next step of `Shutdown::trip`. -/
def tripStep (s : State Frame) : Option (State Frame) :=
  match s.trip with
  | .idle => some { s with stop := true, trip := .locking }
  | .locking => (s.acquire .window).map ({ · with trip := .taking })
  | .taking =>
    match s.slot with
    | some sock => some { s with slot := none, trip := .closing sock }
    | none => some { s with trip := .unlocking }
  | .closing sock => some { s.shutSocket sock with trip := .unlocking }
  | .unlocking => some { s with lock := none, trip := .returned }
  | .returned => none

def step (s : State Frame) : Label Frame → Option (State Frame)
  | .go => s.threadStep
  | .subscribe outcome =>
    match s.pc, outcome with
    | .subscribing, .ok ready =>
      some { s with
        pc := .armLock s.opened ready
        opened := s.opened + 1
        sockets := Function.update s.sockets s.opened ⟨[], false, false⟩ }
    | .subscribing, .error e => some { s with pc := .sendNote (.offline e) .recheck }
    | _, _ => none
  | .deliver =>
    match s.pc with
    | .reading sock =>
      match (s.sockets sock).inbox with
      | f :: rest =>
        some { s with
          sockets := Function.update s.sockets sock { s.sockets sock with inbox := rest }
          pc := .sendNote (.frame f) (.reading sock) }
      | [] => none
    | _ => none
  | .finish error =>
    match s.pc with
    | .reading sock =>
      if (s.sockets sock).shut ∨ (s.sockets sock).ended ∧ (s.sockets sock).inbox = [] then
        some { s with pc := .disarmLock (endReason error) }
      else none
    | _ => none
  | .trip => s.tripStep
  | .push sock f =>
    if s.opened ≤ sock ∨ (s.sockets sock).shut ∨ (s.sockets sock).ended then none
    else
      some { s with
        sockets := Function.update s.sockets sock
          { s.sockets sock with inbox := (s.sockets sock).inbox ++ [f] } }
  | .hangUp sock =>
    some { s with
      sockets := Function.update s.sockets sock { s.sockets sock with ended := true } }
  | .drain n => if s.bridge.receiver then some { s with bridge := s.bridge.drain n } else none
  | .dropReceiver => some { s with bridge := { s.bridge with receiver := false } }

end State

/-- What a step of the thread does, by where the thread is. -/
inductive ThreadMove (s : State Frame) : State Frame → Prop where
  | check (pc : s.pc = .check) :
      ThreadMove s { s with pc := if s.stop then .done else .subscribing }
  | armLock {sock ready} (pc : s.pc = .armLock sock ready) (free : s.lock = none) :
      ThreadMove s { s with lock := some .thread, pc := .armCheck sock ready }
  | armCheck {sock ready} (pc : s.pc = .armCheck sock ready) :
      ThreadMove s { s with pc := if s.stop then .armClose sock else .armStore sock ready }
  | armClose {sock} (pc : s.pc = .armClose sock) :
      ThreadMove s { s.shutSocket sock with slot := none, pc := .armRefuse }
  | armRefuse (pc : s.pc = .armRefuse) : ThreadMove s { s with lock := none, pc := .done }
  | armStore {sock ready} (pc : s.pc = .armStore sock ready) :
      ThreadMove s { s with slot := some sock, pc := .armUnlock sock ready }
  | armUnlock {sock ready} (pc : s.pc = .armUnlock sock ready) :
      ThreadMove s { s with lock := none, pc := .sendNote (.frame ready) (.reading sock) }
  | sendNote {m after} (pc : s.pc = .sendNote m after) :
      ThreadMove s { s with bridge := s.bridge.sendNote.1
                            pc := if s.bridge.sendNote.2 then .sendMessage m after else .done }
  | sendMessage {m after} (pc : s.pc = .sendMessage m after) :
      ThreadMove s { s with bridge := (s.bridge.sendMessage m).1
                            pc := if (s.bridge.sendMessage m).2 then after.pc else .done }
  | disarmLock {reason} (pc : s.pc = .disarmLock reason) (free : s.lock = none) :
      ThreadMove s { s with lock := some .thread, pc := .disarmClear reason }
  | disarmClear {reason} (pc : s.pc = .disarmClear reason) :
      ThreadMove s { s with slot := none, pc := .disarmUnlock reason }
  | disarmUnlock {reason} (pc : s.pc = .disarmUnlock reason) :
      ThreadMove s { s with lock := none, pc := .sendNote (.offline reason) .recheck }
  | recheck (pc : s.pc = .recheck) :
      ThreadMove s { s with pc := if s.stop then .done else .sleeping }
  | sleeping (pc : s.pc = .sleeping) : ThreadMove s { s with pc := .check }

inductive TripMove (s : State Frame) : State Frame → Prop where
  | idle (trip : s.trip = .idle) : TripMove s { s with stop := true, trip := .locking }
  | locking (trip : s.trip = .locking) (free : s.lock = none) :
      TripMove s { s with lock := some .window, trip := .taking }
  | takes {sock} (trip : s.trip = .taking) (slot : s.slot = some sock) :
      TripMove s { s with slot := none, trip := .closing sock }
  | takesNone (trip : s.trip = .taking) (slot : s.slot = none) :
      TripMove s { s with trip := .unlocking }
  | closing {sock} (trip : s.trip = .closing sock) :
      TripMove s { s.shutSocket sock with trip := .unlocking }
  | unlocking (trip : s.trip = .unlocking) :
      TripMove s { s with lock := none, trip := .returned }

inductive Move (s : State Frame) : Label Frame → State Frame → Prop where
  | go {t} (moved : ThreadMove s t) : Move s .go t
  | trip {t} (moved : TripMove s t) : Move s .trip t
  | subscribed {ready} (pc : s.pc = .subscribing) :
      Move s (.subscribe (.ok ready)) { s with
        pc := .armLock s.opened ready
        opened := s.opened + 1
        sockets := Function.update s.sockets s.opened ⟨[], false, false⟩ }
  | refused {e} (pc : s.pc = .subscribing) :
      Move s (.subscribe (.error e)) { s with pc := .sendNote (.offline e) .recheck }
  | deliver {sock f rest} (pc : s.pc = .reading sock) (inbox : (s.sockets sock).inbox = f :: rest) :
      Move s .deliver { s with
        sockets := Function.update s.sockets sock { s.sockets sock with inbox := rest }
        pc := .sendNote (.frame f) (.reading sock) }
  | finish {sock error} (pc : s.pc = .reading sock) :
      Move s (.finish error) { s with pc := .disarmLock (endReason error) }
  | push {sock f} (arrives : (s.sockets sock).shut = false) :
      Move s (.push sock f) { s with
        sockets := Function.update s.sockets sock
          { s.sockets sock with inbox := (s.sockets sock).inbox ++ [f] } }
  | hangUp {sock} :
      Move s (.hangUp sock) { s with
        sockets := Function.update s.sockets sock { s.sockets sock with ended := true } }
  | drain {n} : Move s (.drain n) { s with bridge := s.bridge.drain n }
  | dropReceiver : Move s .dropReceiver { s with bridge := { s.bridge with receiver := false } }

section

variable {s t : State Frame} {l : Label Frame}

theorem acquire_eq_some {p : Party} (acquired : s.acquire p = some t) :
    s.lock = none ∧ t = { s with lock := some p } := by
  unfold State.acquire at acquired
  split at acquired
  next free => exact ⟨free, (Option.some.inj acquired).symm⟩
  next => cases acquired

theorem threadMove (stepped : s.threadStep = some t) : ThreadMove s t := by
  unfold State.threadStep at stepped
  split at stepped
  next pc => cases stepped; exact .check pc
  next => cases stepped
  next pc =>
    obtain ⟨m, acquired, rfl⟩ := Option.map_eq_some_iff.mp stepped
    obtain ⟨free, rfl⟩ := acquire_eq_some acquired
    exact .armLock pc free
  next pc => cases stepped; exact .armCheck pc
  next pc => cases stepped; exact .armClose pc
  next pc => cases stepped; exact .armRefuse pc
  next pc => cases stepped; exact .armStore pc
  next pc => cases stepped; exact .armUnlock pc
  next pc => cases stepped; exact .sendNote pc
  next pc => cases stepped; exact .sendMessage pc
  next => cases stepped
  next pc =>
    obtain ⟨m, acquired, rfl⟩ := Option.map_eq_some_iff.mp stepped
    obtain ⟨free, rfl⟩ := acquire_eq_some acquired
    exact .disarmLock pc free
  next pc => cases stepped; exact .disarmClear pc
  next pc => cases stepped; exact .disarmUnlock pc
  next pc => cases stepped; exact .recheck pc
  next pc => cases stepped; exact .sleeping pc
  next => cases stepped

theorem tripMove (stepped : s.tripStep = some t) : TripMove s t := by
  unfold State.tripStep at stepped
  split at stepped
  next trip => cases stepped; exact .idle trip
  next trip =>
    obtain ⟨m, acquired, rfl⟩ := Option.map_eq_some_iff.mp stepped
    obtain ⟨free, rfl⟩ := acquire_eq_some acquired
    exact .locking trip free
  next trip =>
    split at stepped
    next slot => cases stepped; exact .takes trip slot
    next slot => cases stepped; exact .takesNone trip slot
  next trip => cases stepped; exact .closing trip
  next trip => cases stepped; exact .unlocking trip
  next => cases stepped

/-- Everything that a step can do. -/
theorem move_of_step (stepped : s.step l = some t) : Move s l t := by
  cases l with
  | go => exact .go (threadMove stepped)
  | trip => exact .trip (tripMove stepped)
  | subscribe outcome =>
    unfold State.step at stepped
    dsimp only at stepped
    split at stepped
    next pc => cases stepped; exact .subscribed pc
    next pc => cases stepped; exact .refused pc
    next => cases stepped
  | deliver =>
    unfold State.step at stepped
    dsimp only at stepped
    split at stepped
    next pc =>
      split at stepped
      next inbox => cases stepped; exact .deliver pc inbox
      next => cases stepped
    next => cases stepped
  | finish error =>
    unfold State.step at stepped
    dsimp only at stepped
    split at stepped
    next pc =>
      split at stepped
      next => cases stepped; exact .finish pc
      next => cases stepped
    next => cases stepped
  | push sock f =>
    unfold State.step at stepped
    dsimp only at stepped
    split at stepped
    next => cases stepped
    next arrives =>
      rw [not_or, not_or, Bool.not_eq_true] at arrives
      cases stepped
      exact .push arrives.2.1
  | hangUp sock => cases stepped; exact .hangUp
  | drain n =>
    unfold State.step at stepped
    dsimp only at stepped
    split at stepped
    next => cases stepped; exact .drain
    next => cases stepped
  | dropReceiver => cases stepped; exact .dropReceiver

end

end SubscriptionThread

end NetObserver
