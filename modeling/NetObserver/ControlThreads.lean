import NetObserver.Episodes
import NetObserver.ExperimentWindow
import NetObserver.StreamFrames

/-! The control connections and the experiments' end tasks as threads: who holds which lock
while it flips the shared state, sends the edge, hands its row to the store and files the
window. -/

namespace NetObserver

/-- The commands that move the shared state; the peer's uid comes from its authorisation. -/
inductive ControlCmd where
  | setObserving (b : Bool)
  | setProbing (tier : ProbingTier)
  | startExperiment (minutes : Nat)

inductive ControlTask where
  | control (cmd : ControlCmd) (peerUid : Nat)
  | finishExperiment (id : String) (opened : ExperimentOpen)

/-- What a section under the snapshot lock stamped; of a tier switch also the tier it found. -/
inductive Transition where
  | observing (e : ObservingEdge)
  | switched (sw : Switched)

def Transition.edge : Transition → BoundaryEdge
  | observing e => .observing e
  | switched sw => .probing sw.edge

inductive ThreadPhase where
  | arrived
  | registryHeld
  | flipped (tr : Transition)
  | sent (tr : Transition)
  | written (tr : Option Transition)
  | refused (message : String)
  | answered (tr : Option Transition)

structure ControlThread where
  task : ControlTask
  phase : ThreadPhase

/-- The state the threads share. The snapshot lock is held with the edge its holder is about
to send; `handed` lists the edges given to the store's writes, whatever became of them, and
`brackets` the windows' edges as they were stamped, each under the start of its window. -/
structure ControlPlane where
  clockUs : Int
  shared : Shared
  snapshotLock : Option (Nat × BoundaryEdge)
  registryLock : Option Nat
  experiments : Experiments
  threads : List ControlThread
  bus : List EncodedFrame
  handed : List BoundaryEdge
  brackets : List (Episodes.Event Int Int)

/-- A command arrives, a collector's event is published, or a thread takes its next step: at
`tsUs` if it stamps an edge, and `mayRestore` being what an end task made of the rows it read. -/
inductive PlaneStep where
  | request (cmd : ControlCmd) (peerUid : Nat)
  | publish (event : Event)
  | advance (thread : Nat) (tsUs : Int) (mayRestore : Bool)

namespace ControlPlane

def start (tier : ProbingTier) (bootedUs : Int) : ControlPlane where
  clockUs := bootedUs
  shared := .start tier
  snapshotLock := none
  registryLock := none
  experiments := []
  threads := []
  bus := []
  handed := []
  brackets := []

def setPhase (d : ControlPlane) (k : Nat) (t : ControlThread) (phase : ThreadPhase) :
    ControlPlane :=
  { d with threads := d.threads.set k { t with phase := phase } }

def releaseRegistry (d : ControlPlane) (k : Nat) : ControlPlane :=
  { d with registryLock := if d.registryLock = some k then none else d.registryLock }

/-- `start_experiment` up to its tier switch: the length, then the registry under its lock. -/
def checkWindow (localInstant : Int → String) (d : ControlPlane) (k : Nat) (t : ControlThread)
    (minutes : Nat) : Option ControlPlane :=
  if minutes = 0 ∨ experimentMaxMinutes < minutes then
    some (d.setPhase k t (.refused
      ("experiment length must be 1..=60 minutes, not " ++ minutes.repr)))
  else if d.registryLock.isSome then none
  else
    match d.experiments.running? with
    | some (id, endsAtUs) =>
      some (d.setPhase k t (.refused (experimentRunningMessage localInstant id endsAtUs)))
    | none => some { d.setPhase k t .registryHeld with registryLock := some k }

def switchedAnswer (r : Shared × Except String (Option Switched)) :
    Shared × Except String (Option Transition) :=
  (r.1, r.2.map fun sw => sw.map .switched)

/-- What the task does to the shared state under the snapshot lock. -/
def lockedSection (s : Shared) (task : ControlTask) (tsUs : Int) (mayRestore : Bool) :
    Shared × Except String (Option Transition) :=
  match task with
  | .control (.setObserving b) peerUid =>
    let r := setObserving s b peerUid tsUs
    (r.1, .ok (r.2.map .observing))
  | .control (.setProbing tier) peerUid => switchedAnswer (setProbing s tier peerUid tsUs)
  | .control (.startExperiment _) peerUid => switchedAnswer (openingSwitch s peerUid tsUs)
  | .finishExperiment _ opened =>
    switchedAnswer (closingSwitch s mayRestore opened.tierBefore opened.peerUid tsUs)

/-- How a task goes on when its section stamped no edge. -/
def unstampedPhase : ControlTask → ThreadPhase
  | .control (.startExperiment _) _ => .refused "experiment could not open: no opening edge"
  | .control _ _ => .answered none
  | .finishExperiment .. => .written none

/-- The bracket a stamped edge is of its task's window. -/
def bracketOf (task : ControlTask) (tsUs : Int) : Option (Episodes.Event Int Int) :=
  match task with
  | .control (.startExperiment _) _ => some (.opens tsUs tsUs)
  | .finishExperiment _ opened => some (.closes opened.startUs tsUs)
  | .control (.setObserving _) _ | .control (.setProbing _) _ => none

/-- Take the snapshot lock and flip the state; the lock stays taken until the edge is sent. -/
def enter (d : ControlPlane) (k : Nat) (t : ControlThread) (tsUs : Int) (mayRestore : Bool) :
    Option ControlPlane :=
  if d.snapshotLock.isSome then none
  else if tsUs ≤ d.clockUs then none
  else
    match lockedSection d.shared t.task tsUs mayRestore with
    | (shared, .error message) =>
      some { (d.setPhase k t (.refused message)).releaseRegistry k with shared := shared }
    | (shared, .ok none) =>
      some { (d.setPhase k t (unstampedPhase t.task)).releaseRegistry k with shared := shared }
    | (shared, .ok (some tr)) =>
      some { d.setPhase k t (.flipped tr) with
        clockUs := tsUs
        shared := shared
        snapshotLock := some (k, tr.edge)
        brackets := d.brackets ++ (bracketOf t.task tsUs).toList }

/-- Send the frame and let go of the snapshot lock. -/
def send (d : ControlPlane) (k : Nat) (t : ControlThread) (tr : Transition) : ControlPlane :=
  { d.setPhase k t (.sent tr) with
    snapshotLock := none
    bus := d.bus ++ [.encode tr.edge.frame] }

/-- Hand the row to the store; a switch of an experiment goes on from there. -/
def handOver (d : ControlPlane) (k : Nat) (t : ControlThread) (tr : Transition) : ControlPlane :=
  let phase := match t.task with
    | .control (.setObserving _) _ | .control (.setProbing _) _ => .answered (some tr)
    | .control (.startExperiment _) _ | .finishExperiment .. => .written (some tr)
  { d.setPhase k t phase with handed := d.handed ++ [tr.edge] }

/-- The new window enters the registry, its lock is released and its end task spawned. -/
def openWindow (d : ControlPlane) (k : Nat) (t : ControlThread) (minutes peerUid : Nat)
    (sw : Switched) : ControlPlane :=
  let startUs := sw.edge.tsUs
  let id := experimentId startUs
  let entered := (d.setPhase k t (.answered (some (.switched sw)))).releaseRegistry k
  { entered with
    experiments := d.experiments.insert id (.running (startUs + minutes * 60000000))
    threads := entered.threads ++
      [⟨.finishExperiment id ⟨startUs, minutes, sw.was, peerUid⟩, .arrived⟩] }

def fileWindow (d : ControlPlane) (k : Nat) (t : ControlThread) (id : String)
    (tr : Option Transition) : Option ControlPlane :=
  if d.registryLock.isSome then none
  else
    some { d.setPhase k t (.answered tr) with
      experiments := d.experiments.insert id .finished }

def advance (localInstant : Int → String) (d : ControlPlane) (k : Nat) (t : ControlThread)
    (tsUs : Int) (mayRestore : Bool) : Option ControlPlane :=
  match t.phase, t.task with
  | .arrived, .control (.startExperiment minutes) _ => d.checkWindow localInstant k t minutes
  | .arrived, _ => d.enter k t tsUs mayRestore
  | .registryHeld, .control (.startExperiment _) _ => d.enter k t tsUs mayRestore
  | .flipped tr, _ => some (d.send k t tr)
  | .sent tr, _ => some (d.handOver k t tr)
  | .written (some (.switched sw)), .control (.startExperiment minutes) peerUid =>
    some (d.openWindow k t minutes peerUid sw)
  | .written tr, .finishExperiment id _ => d.fileWindow k t id tr
  | _, _ => none

def step (localInstant : Int → String) (d : ControlPlane) : PlaneStep → Option ControlPlane
  | .request cmd peerUid =>
    some { d with threads := d.threads ++ [⟨.control cmd peerUid, .arrived⟩] }
  | .publish event => some { d with bus := d.bus ++ [.encode (.event event)] }
  | .advance k tsUs mayRestore => do
    let t ← d.threads[k]?
    d.advance localInstant k t tsUs mayRestore

/-- The boundary edges on the bus, in the order they were sent. -/
def sentEdges (d : ControlPlane) : List BoundaryEdge := d.bus.filterMap fun f => f.bytes.edge?

/-- Every boundary edge stamped so far: those sent, and the one being sent under the lock. -/
def edges (d : ControlPlane) : List BoundaryEdge :=
  d.sentEdges ++ (d.snapshotLock.map Prod.snd).toList

/-- Where a thread goes for the snapshot lock: a new window once it holds the registry. -/
def Entering (t : ControlThread) : Prop :=
  (t.phase = .arrived ∧ ∀ m u, t.task ≠ .control (.startExperiment m) u) ∨
    (t.phase = .registryHeld ∧ ∃ m u, t.task = .control (.startExperiment m) u)

/-- The moves of one thread, with what each of them finds and leaves. -/
inductive Moves (d : ControlPlane) (k : Nat) (t : ControlThread) : ControlPlane → Prop where
  | refuse {minutes peerUid : Nat} (message : String) (arrived : t.phase = .arrived)
      (task : t.task = .control (.startExperiment minutes) peerUid) :
      Moves d k t (d.setPhase k t (.refused message))
  | hold {minutes peerUid : Nat} (arrived : t.phase = .arrived)
      (task : t.task = .control (.startExperiment minutes) peerUid)
      (free : d.registryLock = none) (none : d.experiments.running? = none) :
      Moves d k t { d.setPhase k t .registryHeld with registryLock := some k }
  | unstamped {tsUs : Int} {mayRestore : Bool} {answer : Except String (Option Transition)}
      {phase : ThreadPhase}
      (entering : Entering t) (free : d.snapshotLock = none)
      (section_ : lockedSection d.shared t.task tsUs mayRestore = (d.shared, answer))
      (phased : (∃ message, answer = .error message ∧ phase = .refused message) ∨
        answer = .ok none ∧ phase = unstampedPhase t.task) :
      Moves d k t ((d.setPhase k t phase).releaseRegistry k)
  | flip {tsUs : Int} {mayRestore : Bool} {shared : Shared} {tr : Transition}
      (entering : Entering t) (free : d.snapshotLock = none) (later : d.clockUs < tsUs)
      (section_ : lockedSection d.shared t.task tsUs mayRestore = (shared, .ok (some tr))) :
      Moves d k t { d.setPhase k t (.flipped tr) with
        clockUs := tsUs
        shared := shared
        snapshotLock := some (k, tr.edge)
        brackets := d.brackets ++ (bracketOf t.task tsUs).toList }
  | send {tr : Transition} (flipped : t.phase = .flipped tr) : Moves d k t (d.send k t tr)
  | handOver {tr : Transition} (sent : t.phase = .sent tr) : Moves d k t (d.handOver k t tr)
  | openWindow {minutes peerUid : Nat} {sw : Switched}
      (written : t.phase = .written (some (.switched sw)))
      (task : t.task = .control (.startExperiment minutes) peerUid) :
      Moves d k t (d.openWindow k t minutes peerUid sw)
  | fileWindow {id : String} {opened : ExperimentOpen} {tr : Option Transition}
      (written : t.phase = .written tr) (task : t.task = .finishExperiment id opened)
      (free : d.registryLock = none) :
      Moves d k t { d.setPhase k t (.answered tr) with
        experiments := d.experiments.insert id .finished }

/-- A section that stamps no edge leaves the shared state as it found it. -/
theorem lockedSection_unstamped {s shared : Shared} {task : ControlTask} {tsUs : Int}
    {mayRestore : Bool} {answer : Except String (Option Transition)}
    (section_ : lockedSection s task tsUs mayRestore = (shared, answer))
    (unstamped : ∀ tr, answer ≠ .ok (some tr)) : shared = s := by
  have switch {target : ProbingTier → Except String ProbingTier} {peerUid : Option Nat}
      {reason : ProbingReason} {policy : EdgePolicy}
      (eq : switchedAnswer (switchProbing s target peerUid reason policy tsUs) =
        (shared, answer)) : shared = s := by
    rcases switchProbing_cases s target peerUid reason policy tsUs with
      ⟨_, _, found⟩ | ⟨_, found⟩ | ⟨_, _, _, found⟩
    · rw [found] at eq
      exact (congrArg Prod.fst eq).symm
    · rw [found] at eq
      exact absurd (congrArg Prod.snd eq).symm (unstamped _)
    · rw [found] at eq
      exact absurd (congrArg Prod.snd eq).symm (unstamped _)
  match task, section_ with
  | .control (.setObserving b) peerUid, eq =>
    simp only [lockedSection, setObserving] at eq
    split at eq
    · exact (congrArg Prod.fst eq).symm
    · exact absurd (congrArg Prod.snd eq).symm (unstamped _)
  | .control (.setProbing tier) peerUid, eq => exact switch eq
  | .control (.startExperiment minutes) peerUid, eq => exact switch eq
  | .finishExperiment id opened, eq => exact switch eq

/-- Why a tier switch was stamped: an operator's real change, or a bracket of a window. -/
def SwitchReason (s : Shared) (task : ControlTask) (e : ProbingEdge) : Prop :=
  (e.reason = .control ∧ (∃ tier u, task = .control (.setProbing tier) u) ∧ e.tier ≠ s.probing) ∨
    (e.reason = .experiment ∧ (∃ m u, task = .control (.startExperiment m) u) ∧
      s.observing = true) ∨
    e.reason = .experimentEnd ∧ ∃ id opened, task = .finishExperiment id opened

/-- What a section that stamps a tier switch leaves behind. -/
structure Switches (s : Shared) (task : ControlTask) (tsUs : Int) (sw : Switched) (s' : Shared) :
    Prop where
  stamp : sw.edge.tsUs = tsUs
  was : sw.was = s.probing
  observing : s'.observing = s.observing ∧ s'.snapObserving = s.snapObserving
  probing : s'.probing = sw.edge.tier
  mirror : s.snapProbing = s.probing → s'.snapProbing = s'.probing
  reason : SwitchReason s task sw.edge

theorem switches_of_switchProbing {s shared : Shared} {task : ControlTask}
    {target : ProbingTier → Except String ProbingTier} {peerUid : Option Nat}
    {why : ProbingReason} {policy : EdgePolicy} {tsUs : Int} {tr : Transition}
    (eq : switchedAnswer (switchProbing s target peerUid why policy tsUs) =
      (shared, .ok (some tr)))
    (reason : ∀ e : ProbingEdge, e.reason = why → target s.probing = .ok e.tier →
      (policy = .onChange → e.tier ≠ s.probing) → SwitchReason s task e) :
    ∃ sw, tr = .switched sw ∧ Switches s task tsUs sw shared := by
  unfold switchProbing at eq
  cases aim : target s.probing with
  | error message =>
    rw [aim] at eq
    cases congrArg Prod.snd eq
  | ok tier =>
    rw [aim] at eq
    by_cases same : s.probing = tier
    · by_cases onChange : policy = .onChange
      · simp only [same, onChange, and_self, if_pos] at eq
        cases congrArg Prod.snd eq
      · simp only [same, onChange, and_false, if_neg, not_false_eq_true, if_pos] at eq
        cases eq
        refine ⟨_, rfl, rfl, same.symm, ⟨rfl, rfl⟩, same, id, ?_⟩
        exact reason _ rfl aim fun change => absurd change onChange
    · simp only [same, false_and, if_neg, not_false_eq_true] at eq
      cases eq
      refine ⟨_, rfl, rfl, rfl, ⟨rfl, rfl⟩, rfl, fun _ => rfl, ?_⟩
      exact reason _ rfl aim fun _ => Ne.symm same

/-- What a section that stamps an edge leaves behind. -/
theorem lockedSection_stamped {s shared : Shared} {task : ControlTask} {tsUs : Int}
    {mayRestore : Bool} {tr : Transition}
    (section_ : lockedSection s task tsUs mayRestore = (shared, .ok (some tr))) :
    (∃ b u, task = .control (.setObserving b) u ∧ s.observing ≠ b ∧
      tr = .observing ⟨tsUs, b, some u, .control⟩ ∧ shared.observing = b ∧
      shared.snapObserving = b ∧ shared.probing = s.probing ∧
      shared.snapProbing = s.snapProbing) ∨
    ∃ sw, tr = .switched sw ∧ Switches s task tsUs sw shared := by
  match task, section_ with
  | .control (.setObserving b) u, eq =>
    simp only [lockedSection, setObserving] at eq
    split at eq
    next => cases congrArg Prod.snd eq
    next moved =>
      refine .inl ⟨b, u, rfl, moved, ?_⟩
      have left := congrArg Prod.fst eq
      have edge := congrArg Prod.snd eq
      cases edge
      cases left
      cases b <;> exact ⟨rfl, rfl, rfl, rfl, rfl⟩
  | .control (.setProbing tier) u, eq =>
    refine .inr (switches_of_switchProbing eq ?_)
    intro e reason _ moved
    exact .inl ⟨reason, ⟨tier, u, rfl⟩, moved rfl⟩
  | .control (.startExperiment minutes) u, eq =>
    refine .inr (switches_of_switchProbing eq ?_)
    intro e reason aim _
    have observed : s.observing = true := by
      by_contra paused
      simp [paused] at aim
    exact .inr (.inl ⟨reason, ⟨minutes, u, rfl⟩, observed⟩)
  | .finishExperiment id opened, eq =>
    refine .inr (switches_of_switchProbing eq ?_)
    intro e reason _ _
    exact .inr (.inr ⟨reason, id, opened, rfl⟩)

theorem enter_moves {d d' : ControlPlane} {k : Nat} {t : ControlThread} {tsUs : Int}
    {mayRestore : Bool}
    (entering : Entering t)
    (stepped : d.enter k t tsUs mayRestore = some d') : d.Moves k t d' := by
  unfold enter at stepped
  split at stepped
  next => cases stepped
  next free =>
    have unlocked : d.snapshotLock = none := by simpa using free
    split at stepped
    next => cases stepped
    next later =>
      split at stepped
      next shared message eq =>
        have same := lockedSection_unstamped eq (by simp)
        subst same
        cases stepped
        exact .unstamped entering unlocked eq (.inl ⟨message, rfl, rfl⟩)
      next shared eq =>
        have same := lockedSection_unstamped eq (by simp)
        subst same
        cases stepped
        exact .unstamped entering unlocked eq (.inr ⟨rfl, rfl⟩)
      next shared tr eq =>
        cases stepped
        exact .flip entering unlocked (by omega) eq

theorem advance_moves {localInstant : Int → String} {d d' : ControlPlane} {k : Nat}
    {t : ControlThread} {tsUs : Int} {mayRestore : Bool}
    (stepped : d.advance localInstant k t tsUs mayRestore = some d') : d.Moves k t d' := by
  unfold advance at stepped
  split at stepped
  next minutes peerUid arrived task =>
    unfold checkWindow at stepped
    split at stepped
    next =>
      cases stepped
      exact .refuse _ arrived task
    next =>
      split at stepped
      next => cases stepped
      next free =>
        split at stepped
        next =>
          cases stepped
          exact .refuse _ arrived task
        next none =>
          cases stepped
          exact .hold arrived task (by simpa using free) none
  next arrived other => exact enter_moves (.inl ⟨arrived, other⟩) stepped
  next minutes peerUid held task =>
    exact enter_moves (.inr ⟨held, minutes, peerUid, task⟩) stepped
  next tr flipped =>
    cases stepped
    exact .send flipped
  next tr sent =>
    cases stepped
    exact .handOver sent
  next sw minutes peerUid written task =>
    cases stepped
    exact .openWindow written task
  next tr id opened written task =>
    unfold fileWindow at stepped
    split at stepped
    next => cases stepped
    next free =>
      cases stepped
      exact .fileWindow written task (by simpa using free)
  next => cases stepped

/-- What one step of the threads can do. -/
theorem step_cases {localInstant : Int → String} {d d' : ControlPlane} {label : PlaneStep}
    (stepped : d.step localInstant label = some d') :
    (∃ cmd peerUid, d' = { d with threads := d.threads ++ [⟨.control cmd peerUid, .arrived⟩] }) ∨
    (∃ event, d' = { d with bus := d.bus ++ [.encode (.event event)] }) ∨
    ∃ k t tsUs mayRestore, label = .advance k tsUs mayRestore ∧ d.threads[k]? = some t ∧
      d.Moves k t d' := by
  cases label with
  | request cmd peerUid => exact .inl ⟨cmd, peerUid, (Option.some.inj stepped).symm⟩
  | publish event => exact .inr (.inl ⟨event, (Option.some.inj stepped).symm⟩)
  | advance k tsUs mayRestore =>
    obtain ⟨t, thread, moved⟩ := Option.bind_eq_some_iff.mp stepped
    exact .inr (.inr ⟨k, t, tsUs, mayRestore, rfl, thread, advance_moves moved⟩)

end ControlPlane

def ThreadPhase.over : ThreadPhase → Bool
  | .refused _ | .answered _ => true
  | .arrived | .registryHeld | .flipped _ | .sent _ | .written _ => false

namespace ControlPlane

theorem Moves.not_over {d d' : ControlPlane} {k : Nat} {t : ControlThread}
    (moved : d.Moves k t d') : t.phase.over = false := by
  cases moved with
  | refuse message arrived | hold arrived => rw [arrived]; rfl
  | unstamped entering | flip entering =>
    rcases entering with ⟨arrived, _⟩ | ⟨held, _⟩
    · rw [arrived]; rfl
    · rw [held]; rfl
  | send flipped => rw [flipped]; rfl
  | handOver sent => rw [sent]; rfl
  | openWindow written | fileWindow written => rw [written]; rfl

/-- A move of one thread leaves every other thread where it is. -/
theorem Moves.others {d d' : ControlPlane} {k j : Nat} {t u : ControlThread}
    (moved : d.Moves k t d') (apart : j ≠ k) (thread : d.threads[j]? = some u) :
    d'.threads[j]? = some u := by
  have set (phase : ThreadPhase) :
      (d.threads.set k { t with phase := phase })[j]? = some u := by
    rw [List.getElem?_set_ne (Ne.symm apart)]
    exact thread
  cases moved with
  | @openWindow minutes peerUid sw written task =>
    have kept := set (.answered (some (.switched sw)))
    have bound := (List.getElem?_eq_some_iff.mp kept).1
    exact (List.getElem?_append_left bound).trans kept
  | refuse | hold | unstamped | flip | send | handOver | fileWindow => exact set _

theorem step_over {localInstant : Int → String} {d d' : ControlPlane} {label : PlaneStep}
    {k : Nat} {t : ControlThread} (stepped : d.step localInstant label = some d')
    (thread : d.threads[k]? = some t) (ended : t.phase.over = true) :
    d'.threads[k]? = some t := by
  rcases step_cases stepped with
    ⟨cmd, peerUid, rfl⟩ | ⟨event, rfl⟩ | ⟨j, u, tsUs, mayRestore, _, found, moved⟩
  · have bound : k < d.threads.length := (List.getElem?_eq_some_iff.mp thread).1
    exact (List.getElem?_append_left bound).trans thread
  · exact thread
  · by_cases same : k = j
    · subst same
      rw [thread] at found
      cases found
      rw [moved.not_over] at ended
      cases ended
    · exact moved.others same thread

theorem run_over {localInstant : Int → String} {d e : ControlPlane} {labels : List PlaneStep}
    {k : Nat} {t : ControlThread}
    (ran : Runs.runSteps (step localInstant) d labels = some e)
    (thread : d.threads[k]? = some t) (ended : t.phase.over = true) :
    e.threads[k]? = some t :=
  Runs.runSteps_invariant (P := fun d : ControlPlane => d.threads[k]? = some t)
    (fun _ _ _ stepped found => step_over stepped found ended) ran thread

theorem advance_over {localInstant : Int → String} {d : ControlPlane} {k : Nat}
    {t : ControlThread} (thread : d.threads[k]? = some t) (ended : t.phase.over = true)
    (tsUs : Int) (mayRestore : Bool) :
    d.step localInstant (.advance k tsUs mayRestore) = none := by
  cases stepped : d.step localInstant (.advance k tsUs mayRestore) with
  | none => rfl
  | some d' =>
    obtain ⟨u, found, moved⟩ := Option.bind_eq_some_iff.mp stepped
    rw [thread] at found
    cases found
    rw [(advance_moves moved).not_over] at ended
    cases ended

end ControlPlane

end NetObserver
