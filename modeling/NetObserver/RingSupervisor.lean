import Mathlib.Data.List.Chain
import NetObserver.Runs

/-! The supervisors of the captures that need the physical interface: the ring polled in its slot,
the listeners awaited to their end, and what the log tells of either. -/

namespace NetObserver

inductive CaptureLine where
  | notRunning (reason : String)
  | stillNotRunning (reason : String)
  | started (iface : String)
  | childExited
  | ended
  | taskFailed (error : String)

namespace CaptureLine

def reason? : CaptureLine → Option String
  | notRunning reason | stillNotRunning reason => some reason
  | started _ | childExited | ended | taskFailed _ => none

def isEnd : CaptureLine → Bool
  | childExited | ended | taskFailed _ => true
  | notRunning _ | stillNotRunning _ | started _ => false

end CaptureLine

def noIface : String := "no physical interface resolved"

/-- A `tcpdump` child on an interface. -/
structure CaptureRing where
  iface : String
  alive : Bool

structure RingSupervisor where
  slot : Option CaptureRing
  lastReason : Option String
  log : List CaptureLine

inductive RingStep where
  | exits
  | patrol (iface : Option String) (start : Except String Unit)

namespace RingSupervisor

def isAlive (s : RingSupervisor) : Bool := (s.slot.map CaptureRing.alive).getD false

/-- The handle of a dead child is let go of before another is started. -/
def clear (s : RingSupervisor) : RingSupervisor :=
  match s.slot with
  | some _ => ⟨none, none, s.log ++ [.childExited]⟩
  | none => s

def note (s : RingSupervisor) (reason : Option String) : RingSupervisor :=
  if reason = s.lastReason then s
  else { s with
    lastReason := reason
    log := s.log ++ (reason.map CaptureLine.stillNotRunning).toList }

def patrol (s : RingSupervisor) (iface : Option String) (start : Except String Unit) :
    RingSupervisor :=
  if s.isAlive then s
  else
    let s := s.clear
    match iface with
    | none => s.note (some noIface)
    | some iface =>
      match start with
      | .ok _ =>
        note { s with slot := some ⟨iface, true⟩, log := s.log ++ [.started iface] } none
      | .error e => s.note (some ("tcpdump could not be spawned: " ++ e))

def step (s : RingSupervisor) : RingStep → RingSupervisor
  | .exits => { s with slot := s.slot.map fun ring => { ring with alive := false } }
  | .patrol iface start => s.patrol iface start

end RingSupervisor

/-- A capture that is awaited to its end, and started again an interval later. -/
structure IfaceSupervisor where
  running : Option String
  lastReason : Option String
  log : List CaptureLine

/-- How an attempt to start the capture went wrong: `start` failed, or its task did. -/
inductive StartFailure where
  | refused (error : String)
  | task (error : String)

inductive IfaceStep where
  | attempt (iface : Option String) (start : Except StartFailure Unit)
  | ends (result : Except String Unit)

namespace IfaceSupervisor

def failure (iface : String) : StartFailure → String
  | .refused e => "tcpdump could not be started on " ++ iface ++ ": " ++ e
  | .task e => "capture start task failed on " ++ iface ++ ": " ++ e

def note (s : IfaceSupervisor) (reason : Option String) : IfaceSupervisor :=
  if reason = s.lastReason then s
  else { s with
    lastReason := reason
    log := s.log ++ (reason.map CaptureLine.notRunning).toList }

def step (s : IfaceSupervisor) : IfaceStep → Option IfaceSupervisor
  | .attempt iface start =>
    match s.running with
    | some _ => none
    | none =>
      match iface with
      | none => some (s.note (some noIface))
      | some iface =>
        match start with
        | .ok _ => some ⟨some iface, none, s.log ++ [.started iface]⟩
        | .error e => some (s.note (some (failure iface e)))
  | .ends result =>
    match s.running with
    | none => none
    | some _ =>
      let line := match result with
        | .ok _ => CaptureLine.ended
        | .error e => .taskFailed e
      some (note { s with running := none, log := s.log ++ [line] } none)

end IfaceSupervisor

/-- What a log may say next: a reason only if it is another than the one it gave last, a start
only of what is not running, an end only of what is. -/
inductive LineFollows : CaptureLine → CaptureLine → Prop where
  | changed {a b : CaptureLine} {r r' : String} (was : a.reason? = some r) (is : b.reason? = some r')
      (other : r' ≠ r) : LineFollows a b
  | recovered {a : CaptureLine} {r : String} (was : a.reason? = some r) (iface : String) :
      LineFollows a (.started iface)
  | ending {b : CaptureLine} (iface : String) (is : b.isEnd = true) : LineFollows (.started iface) b
  | again {a : CaptureLine} (was : a.isEnd = true) (iface : String) : LineFollows a (.started iface)
  | fails {a b : CaptureLine} {r : String} (was : a.isEnd = true) (is : b.reason? = some r) :
      LineFollows a b

/-- The log is one that may be said, and ends with what is the case. -/
structure LogTells (running lastReason : Option String) (log : List CaptureLine) : Prop where
  chain : log.IsChain LineFollows
  last : ∀ line, log.getLast? = some line →
    (∃ iface, running = some iface ∧ lastReason = none ∧ line = .started iface) ∨
    (running = none ∧ ∃ r, lastReason = some r ∧ line.reason? = some r) ∨
    (running = none ∧ lastReason = none ∧ line.isEnd = true)
  quiet : log = [] → lastReason = none

namespace LogTells

variable {running lastReason : Option String} {log : List CaptureLine} {line : CaptureLine}

theorem snoc_chain (tells : LogTells running lastReason log)
    (follows : ∀ earlier, log.getLast? = some earlier → LineFollows earlier line) :
    (log ++ [line]).IsChain LineFollows :=
  List.isChain_append.mpr ⟨tells.chain, .singleton _, fun earlier last next head => by
    cases head
    exact follows earlier last⟩

theorem down (tells : LogTells none lastReason log) {r : String} (is : line.reason? = some r)
    (other : lastReason ≠ some r) : LogTells none (some r) (log ++ [line]) where
  chain := tells.snoc_chain fun earlier last => by
    rcases tells.last earlier last with ⟨_, on, _⟩ | ⟨_, r', reason, was⟩ | ⟨_, _, ended⟩
    · cases on
    · exact .changed was is fun same => other (same ▸ reason)
    · exact .fails ended is
  last := fun found last => by
    rw [List.getLast?_concat] at last
    cases last
    exact .inr (.inl ⟨rfl, r, rfl, is⟩)
  quiet := fun none => by simp at none

theorem up (tells : LogTells none lastReason log) (iface : String) :
    LogTells (some iface) none (log ++ [.started iface]) where
  chain := tells.snoc_chain fun earlier last => by
    rcases tells.last earlier last with ⟨_, on, _⟩ | ⟨_, r, _, was⟩ | ⟨_, _, ended⟩
    · cases on
    · exact .recovered was iface
    · exact .again ended iface
  last := fun found last => by
    rw [List.getLast?_concat] at last
    cases last
    exact .inl ⟨iface, rfl, rfl, rfl⟩
  quiet := fun _ => rfl

theorem ending {iface : String} (tells : LogTells (some iface) lastReason log)
    (is : line.isEnd = true) : LogTells none none (log ++ [line]) where
  chain := tells.snoc_chain fun earlier last => by
    rcases tells.last earlier last with ⟨on, _, _, rfl⟩ | ⟨off, _⟩ | ⟨off, _⟩
    · exact .ending on is
    · cases off
    · cases off
  last := fun found last => by
    rw [List.getLast?_concat] at last
    cases last
    exact .inr (.inr ⟨rfl, rfl, is⟩)
  quiet := fun _ => rfl

end LogTells

namespace RingSupervisor

/-- What holds of the ring's supervisor whenever it sleeps: an empty slot has its reason. -/
structure Kept (s : RingSupervisor) : Prop where
  tells : LogTells (s.slot.map CaptureRing.iface) s.lastReason s.log
  reason : s.slot = none → ∃ r, s.lastReason = some r

end RingSupervisor

namespace IfaceSupervisor

end IfaceSupervisor

end NetObserver
