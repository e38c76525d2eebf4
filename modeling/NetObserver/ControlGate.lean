import NetObserver.EdgeRecord
import NetObserver.NeighborScanner
import NetObserver.RateLimitedLog

/-! The peer check in front of every command of the socket: who may move the control plane, and
what a refused request leaves behind. -/

namespace NetObserver

/-- The commands as the socket carries them. -/
inductive SocketCommand where
  | kickstartProxy
  | setObserving (b : Bool)
  | freezePcap
  | setProbing (tier : ProbingTier)
  | scanNeighbors (opts : ScanOptions)
  | scanAir
  | scanTopology
  | scanEgress
  | startExperiment (minutes : Nat)

/-- Of these, the commands that move the state the collectors share. -/
def SocketCommand.moves : SocketCommand → Option ControlCmd
  | .setObserving b => some (.setObserving b)
  | .setProbing tier => some (.setProbing tier)
  | .startExperiment minutes => some (.startExperiment minutes)
  | .kickstartProxy | .freezePcap | .scanNeighbors _ | .scanAir | .scanTopology | .scanEgress =>
    none

def rootUid : Nat := 0

structure ControlPolicy where
  daemonUid : Nat
  socketOwnerUid : Option Nat
  controlUids : List Nat

def controlAuthorized (policy : ControlPolicy) (peerUid : Nat) (consoleUid : Option Nat) : Bool :=
  peerUid == rootUid || peerUid == policy.daemonUid || policy.socketOwnerUid == some peerUid ||
    consoleUid == some peerUid || policy.controlUids.contains peerUid

/-- The owner of `/dev/console`; a console that root owns has nobody logged in at it. -/
def consoleUid (owner : Option Nat) : Option Nat := owner.filter fun uid => uid != rootUid

/-- A peer that passed the check, against the console user found then. -/
structure PeerAuthorized (policy : ControlPolicy) (console : Option Nat) where
  uid : Nat
  authorized : controlAuthorized policy uid console = true

theorem controlAuthorized_none {policy : ControlPolicy} {peerUid : Nat}
    (authorized : controlAuthorized policy peerUid none = true) (console : Option Nat) :
    controlAuthorized policy peerUid console = true := by
  simp only [controlAuthorized, Bool.or_eq_true] at authorized ⊢
  rcases authorized with ((found | console) | listed)
  · exact .inl (.inl found)
  · cases console
  · exact .inr listed

def authorizeControl (policy : ControlPolicy) (owner : Option Nat) :
    Option Nat → Except ControlResult (PeerAuthorized policy (consoleUid owner))
  | some uid =>
    -- the console is looked up last, and only for a peer nothing else lets in
    if unlooked : controlAuthorized policy uid none = true then
      .ok ⟨uid, controlAuthorized_none unlooked _⟩
    else if authorized : controlAuthorized policy uid (consoleUid owner) = true then
      .ok ⟨uid, authorized⟩
    else
      .error ⟨false,
        "control refused: uid " ++ uid.repr ++ " is not authorised to control net-observerd"⟩
  | none => .error ⟨false, "control refused: peer credentials unavailable"⟩

theorem authorizeControl_ok {policy : ControlPolicy} {owner peer : Option Nat}
    {authorized : PeerAuthorized policy (consoleUid owner)}
    (passed : authorizeControl policy owner peer = .ok authorized) :
    peer = some authorized.uid := by
  unfold authorizeControl at passed
  split at passed
  next uid =>
    split at passed
    next => cases passed; rfl
    next =>
      split at passed
      next => cases passed; rfl
      next => cases passed
  next => cases passed

/-- Exactly the peers the policy names pass, and the user logged in at the console. -/
theorem authorizeControl_iff {policy : ControlPolicy} {owner : Option Nat} {uid : Nat} :
    (∃ authorized, authorizeControl policy owner (some uid) = .ok authorized) ↔
      controlAuthorized policy uid (consoleUid owner) = true := by
  unfold authorizeControl
  constructor
  · intro passed
    obtain ⟨authorized, passed⟩ := passed
    have same : uid = authorized.uid := Option.some.inj (authorizeControl_ok passed)
    exact same ▸ authorized.authorized
  · intro authorized
    by_cases unlooked : controlAuthorized policy uid none = true
    · exact ⟨_, dif_pos unlooked⟩
    · exact ⟨⟨uid, authorized⟩, by simp only [dif_neg unlooked, dif_pos authorized]⟩

/-- The control plane behind its gate, the console it is looked up at, and the throttled log of
the refusals. -/
structure GatedPlane where
  plane : ControlPlane
  consoleOwner : Option Nat
  refusals : RateLimitedLog

inductive GateStep where
  | login (owner : Option Nat)
  | control (cmd : SocketCommand) (peer : Option Nat) (nowNs : Nat)
  | publish (event : Event)
  | advance (thread : Nat) (tsUs : Int) (mayRestore : Bool)

namespace GatedPlane

def start (tier : ProbingTier) (bootedUs : Int) (owner : Option Nat) : GatedPlane :=
  ⟨.start tier bootedUs, owner, .new refusalLogIntervalNs⟩

def planeStep (localInstant : Int → String) (w : GatedPlane) (label : PlaneStep) :
    Option GatedPlane :=
  (w.plane.step localInstant label).map fun plane => { w with plane := plane }

/-- `control_response`: a dispatch has its peer's authorisation. -/
def controlResponse (localInstant : Int → String) {policy : ControlPolicy} {console : Option Nat}
    (w : GatedPlane) (cmd : SocketCommand) (authorized : PeerAuthorized policy console) :
    Option GatedPlane :=
  match cmd.moves with
  | some moving => w.planeStep localInstant (.request moving authorized.uid)
  | none => some w

def controlRequest (localInstant : Int → String) (policy : ControlPolicy) (w : GatedPlane)
    (cmd : SocketCommand) (peer : Option Nat) (nowNs : Nat) : Option GatedPlane :=
  match authorizeControl policy w.consoleOwner peer with
  | .ok authorized => w.controlResponse localInstant cmd authorized
  | .error _ => some { w with refusals := (w.refusals.record nowNs).1 }

def step (localInstant : Int → String) (policy : ControlPolicy) (w : GatedPlane) :
    GateStep → Option GatedPlane
  | .login owner => some { w with consoleOwner := owner }
  | .control cmd peer nowNs => w.controlRequest localInstant policy cmd peer nowNs
  | .publish event => w.planeStep localInstant (.publish event)
  | .advance k tsUs mayRestore => w.planeStep localInstant (.advance k tsUs mayRestore)

end GatedPlane

/-- What the tasks and the edges of a plane go back to, by the requests that count as made. -/
def ControlTask.OnRequest (made : ControlCmd → Nat → Prop) : ControlTask → Prop
  | .control cmd peerUid => made cmd peerUid
  | .finishExperiment _ opened => made (.startExperiment opened.requestedMinutes) opened.peerUid

/-- An edge names the peer on whose request it was stamped, and is what the request was for. -/
def BoundaryEdge.OnRequest (made : ControlCmd → Nat → Prop) : BoundaryEdge → Prop
  | .observing e => e.cause = .control ∧
    ∃ uid, e.peerUid = some uid ∧ made (.setObserving e.observing) uid
  | .probing e => ∃ uid, e.peerUid = some uid ∧
    match e.reason with
    | .control => made (.setProbing e.tier) uid
    | .experiment => e.tier = .passive ∧ ∃ minutes, made (.startExperiment minutes) uid
    | .experimentEnd => ∃ minutes, made (.startExperiment minutes) uid
    | .startup => False

theorem BoundaryEdge.OnRequest.mono {made made' : ControlCmd → Nat → Prop} {e : BoundaryEdge}
    (imp : ∀ cmd uid, made cmd uid → made' cmd uid) (onRequest : e.OnRequest made) :
    e.OnRequest made' := by
  cases e with
  | observing e =>
    obtain ⟨cause, uid, peer, asked⟩ := onRequest
    exact ⟨cause, uid, peer, imp _ _ asked⟩
  | probing e =>
    obtain ⟨uid, peer, asked⟩ := onRequest
    refine ⟨uid, peer, ?_⟩
    cases reason : e.reason with
    | control =>
      rw [reason] at asked
      exact imp _ _ asked
    | experiment =>
      rw [reason] at asked
      obtain ⟨passive, minutes, asked⟩ := asked
      exact ⟨passive, minutes, imp _ _ asked⟩
    | experimentEnd =>
      rw [reason] at asked
      obtain ⟨minutes, asked⟩ := asked
      exact ⟨minutes, imp _ _ asked⟩
    | startup =>
      rw [reason] at asked
      exact asked.elim

structure ControlPlane.OnRequest (made : ControlCmd → Nat → Prop) (d : ControlPlane) : Prop where
  threads : ∀ t ∈ d.threads, t.task.OnRequest made
  edges : ∀ e ∈ d.edges, e.OnRequest made

namespace ControlPlane

variable {made : ControlCmd → Nat → Prop} {localInstant : Int → String}

theorem switchedAnswer_edge {s shared : Shared} {target : ProbingTier → Except String ProbingTier}
    {peerUid : Option Nat} {reason : ProbingReason} {policy : EdgePolicy} {tsUs : Int}
    {tr : Transition}
    (stamped : switchedAnswer (switchProbing s target peerUid reason policy tsUs) =
      (shared, .ok (some tr))) :
    ∃ tier, target s.probing = .ok tier ∧ tr.edge = .probing ⟨tsUs, tier, peerUid, reason⟩ := by
  unfold switchProbing at stamped
  cases aim : target s.probing with
  | error message =>
    rw [aim] at stamped
    cases congrArg Prod.snd stamped
  | ok tier =>
    rw [aim] at stamped
    refine ⟨tier, rfl, ?_⟩
    by_cases idle : s.probing = tier ∧ policy = .onChange
    · simp only [idle, and_self, if_pos] at stamped
      cases congrArg Prod.snd stamped
    · simp only [if_neg idle] at stamped
      cases congrArg Prod.snd stamped
      rfl

/-- What a task stamps under the lock goes back to what the task goes back to. -/
theorem lockedSection_onRequest {s shared : Shared} {task : ControlTask} {tsUs : Int}
    {mayRestore : Bool} {tr : Transition} (onRequest : task.OnRequest made)
    (stamped : lockedSection s task tsUs mayRestore = (shared, .ok (some tr))) :
    tr.edge.OnRequest made := by
  match task, stamped with
  | .control (.setObserving b) uid, stamped =>
    simp only [lockedSection, setObserving] at stamped
    split at stamped
    next => cases congrArg Prod.snd stamped
    next =>
      cases congrArg Prod.snd stamped
      exact ⟨rfl, uid, rfl, onRequest⟩
  | .control (.setProbing tier) uid, stamped =>
    obtain ⟨tier', aim, edge⟩ := switchedAnswer_edge stamped
    cases aim
    rw [edge]
    exact ⟨uid, rfl, onRequest⟩
  | .control (.startExperiment minutes) uid, stamped =>
    obtain ⟨tier, aim, edge⟩ := switchedAnswer_edge stamped
    rw [edge]
    refine ⟨uid, rfl, ?_, minutes, onRequest⟩
    split at aim
    next =>
      cases aim
      rfl
    next => cases aim
  | .finishExperiment id opened, stamped =>
    obtain ⟨tier, aim, edge⟩ := switchedAnswer_edge stamped
    rw [edge]
    exact ⟨opened.peerUid, rfl, opened.requestedMinutes, onRequest⟩

theorem onRequest_set {d : ControlPlane} {k : Nat} {t : ControlThread}
    (onRequest : d.OnRequest made) (thread : d.threads[k]? = some t) (phase : ThreadPhase) :
    ∀ u ∈ (d.setPhase k t phase).threads, u.task.OnRequest made := by
  intro u mem
  rcases List.mem_or_eq_of_mem_set mem with old | rfl
  · exact onRequest.threads u old
  · exact onRequest.threads t (List.mem_of_getElem? thread)

theorem onRequest_threads {d d' : ControlPlane} {k : Nat} {t : ControlThread}
    (onRequest : d.OnRequest made) (thread : d.threads[k]? = some t) (moved : d.Moves k t d') :
    ∀ u ∈ d'.threads, u.task.OnRequest made := by
  cases moved with
  | @openWindow minutes peerUid sw written task =>
    intro u mem
    rcases List.mem_append.mp mem with old | new
    · exact onRequest_set onRequest thread _ u old
    · cases List.mem_singleton.mp new
      have asked := onRequest.threads t (List.mem_of_getElem? thread)
      rw [task] at asked
      exact asked
  | refuse | hold | unstamped | flip | send | handOver | fileWindow =>
    exact onRequest_set onRequest thread _

theorem onRequest_step {tier : ProbingTier} {d d' : ControlPlane} {label : PlaneStep}
    (record : EdgeRecord tier d) (onRequest : d.OnRequest made)
    (asked : ∀ cmd uid, label = .request cmd uid → made cmd uid)
    (stepped : d.step localInstant label = some d') : d'.OnRequest made := by
  cases label with
  | request cmd uid =>
    cases stepped
    refine ⟨?_, onRequest.edges⟩
    intro t mem
    rcases List.mem_append.mp mem with old | new
    · exact onRequest.threads t old
    · cases List.mem_singleton.mp new
      exact asked cmd uid rfl
  | publish event =>
    cases stepped
    refine ⟨onRequest.threads, ?_⟩
    rw [edges_publish]
    exact onRequest.edges
  | advance k tsUs mayRestore =>
    obtain ⟨t, thread, stepped⟩ := Option.bind_eq_some_iff.mp stepped
    have moved := advance_moves stepped
    refine ⟨onRequest_threads onRequest thread moved, ?_⟩
    rcases moves_frame record.toEdgesTracked thread moved with
      ⟨_, same, _⟩ | ⟨tsUs, mayRestore, tr, _, stamped, more, _⟩
    · rw [same]
      exact onRequest.edges
    · rw [more]
      intro e mem
      rcases List.mem_append.mp mem with old | new
      · exact onRequest.edges e old
      · cases List.mem_singleton.mp new
        exact lockedSection_onRequest (onRequest.threads t (List.mem_of_getElem? thread)) stamped

/-- Every edge of a run goes back to a request of the run. -/
theorem onRequest_run {tier : ProbingTier} {bootedUs : Int} {labels : List PlaneStep}
    {d : ControlPlane}
    (ran : Runs.runSteps (step localInstant) (.start tier bootedUs) labels = some d) :
    d.OnRequest fun cmd uid => .request cmd uid ∈ labels := by
  have kept := Runs.runSteps_guarded
    (P := fun d => EdgeRecord tier d ∧ d.OnRequest fun cmd uid => .request cmd uid ∈ labels)
    (G := fun _ label => label ∈ labels)
    (fun d label d' stepped mem kept => ⟨edgeRecord_step stepped kept.1,
      onRequest_step kept.1 kept.2 (fun cmd uid eq => eq ▸ mem) stepped⟩)
    ran
    (fun past label rest u v eq _ _ => eq ▸ List.mem_append_right _ List.mem_cons_self)
    ⟨edgeRecord_start tier bootedUs, ⟨fun t mem => (by cases mem), fun e mem => (by cases mem)⟩⟩
  exact kept.2

end ControlPlane

namespace GatedPlane

variable (localInstant : Int → String) (policy : ControlPolicy)

/-- What the gate lets through to the plane: the console is the one logged in at by then. -/
def planeSteps : Option Nat → List GateStep → List PlaneStep
  | _, [] => []
  | _, .login owner :: later => planeSteps owner later
  | owner, .control cmd peer _ :: later =>
    match authorizeControl policy owner peer, cmd.moves with
    | .ok authorized, some moving => .request moving authorized.uid :: planeSteps owner later
    | _, _ => planeSteps owner later
  | owner, .publish event :: later => .publish event :: planeSteps owner later
  | owner, .advance k tsUs mayRestore :: later =>
    .advance k tsUs mayRestore :: planeSteps owner later

/-- The instants at which the gate refused. -/
def refusedNs : Option Nat → List GateStep → List Nat
  | _, [] => []
  | _, .login owner :: later => refusedNs owner later
  | owner, .control _ peer nowNs :: later =>
    match authorizeControl policy owner peer with
    | .ok _ => refusedNs owner later
    | .error _ => nowNs :: refusedNs owner later
  | owner, .publish _ :: later | owner, .advance .. :: later => refusedNs owner later

def consoleAfter : Option Nat → List GateStep → Option Nat
  | owner, [] => owner
  | _, .login owner :: later => consoleAfter owner later
  | owner, .control .. :: later | owner, .publish _ :: later | owner, .advance .. :: later =>
    consoleAfter owner later

/-- What the daemon's log reads of the refusals. -/
def refusalLines (owner : Option Nat) (labels : List GateStep) : List (Nat × Burst) :=
  ((RateLimitedLog.new refusalLogIntervalNs).recordAll (refusedNs policy owner labels)).2

theorem bind_planeStep (w : GatedPlane) (label : PlaneStep) (labels : List PlaneStep)
    (f : GatedPlane → Option GatedPlane) {g : ControlPlane → GatedPlane}
    (next : ∀ d, f { w with plane := d } =
      (Runs.runSteps (ControlPlane.step localInstant) d labels).map g) :
    (w.planeStep localInstant label).bind f =
      (Runs.runSteps (ControlPlane.step localInstant) w.plane (label :: labels)).map g := by
  rw [planeStep, Runs.runSteps]
  cases w.plane.step localInstant label with
  | none => rfl
  | some d => exact next d

/-- A run behind the gate is a run of the plane on what the gate lets through: a refused request
leaves nothing but its count in the log. -/
theorem run_eq (w : GatedPlane) (labels : List GateStep) :
    Runs.runSteps (step localInstant policy) w labels =
      (Runs.runSteps (ControlPlane.step localInstant) w.plane
        (planeSteps policy w.consoleOwner labels)).map fun plane =>
          ⟨plane, consoleAfter w.consoleOwner labels,
            (w.refusals.recordAll (refusedNs policy w.consoleOwner labels)).1⟩ := by
  induction labels generalizing w with
  | nil => rfl
  | cons label later ih =>
    cases label with
    | login owner => exact ih { w with consoleOwner := owner }
    | publish event => exact bind_planeStep localInstant w _ _ _ fun d => ih { w with plane := d }
    | advance k tsUs mayRestore =>
      exact bind_planeStep localInstant w _ _ _ fun d => ih { w with plane := d }
    | control cmd peer nowNs =>
      rw [Runs.runSteps, step, controlRequest, planeSteps, refusedNs, consoleAfter]
      cases checked : authorizeControl policy w.consoleOwner peer with
      | error refusal => exact ih { w with refusals := (w.refusals.record nowNs).1 }
      | ok authorized =>
        cases moving : cmd.moves with
        | none =>
          simp only [controlResponse, moving]
          exact ih w
        | some moving' =>
          simp only [controlResponse, moving]
          exact bind_planeStep localInstant w _ _ _ fun d => ih { w with plane := d }

/-- A command came from this peer, and the policy let it through with the console of the moment. -/
def Sanctioned (owner : Option Nat) (labels : List GateStep) (moving : ControlCmd) (uid : Nat) :
    Prop :=
  ∃ past cmd nowNs later, labels = past ++ .control cmd (some uid) nowNs :: later ∧
    cmd.moves = some moving ∧
    controlAuthorized policy uid (consoleUid (consoleAfter owner past)) = true

theorem Sanctioned.later {policy : ControlPolicy} {owner : Option Nat} {label : GateStep}
    {labels : List GateStep} {moving : ControlCmd} {uid : Nat}
    (sanctioned : Sanctioned policy (consoleAfter owner [label]) labels moving uid) :
    Sanctioned policy owner (label :: labels) moving uid := by
  obtain ⟨past, cmd, nowNs, later, rfl, moves, authorized⟩ := sanctioned
  refine ⟨label :: past, cmd, nowNs, later, rfl, moves, ?_⟩
  cases label with
  | login | control | publish | advance => exact authorized

theorem sanctioned_of_mem {policy : ControlPolicy} {owner : Option Nat} {labels : List GateStep}
    {moving : ControlCmd} {uid : Nat}
    (mem : PlaneStep.request moving uid ∈ planeSteps policy owner labels) :
    Sanctioned policy owner labels moving uid := by
  induction labels generalizing owner with
  | nil => cases mem
  | cons label later ih =>
    cases label with
    | login next => exact (ih mem).later
    | publish event | advance k tsUs mayRestore =>
      cases mem with
      | tail _ mem => exact (ih mem).later
    | control cmd peer nowNs =>
      rw [planeSteps] at mem
      split at mem
      next authorized moving' passed moves =>
        cases mem with
        | tail _ mem => exact (ih mem).later
        | head =>
          have peer' := authorizeControl_ok passed
          subst peer'
          exact ⟨[], cmd, nowNs, later, rfl, moves, authorized.authorized⟩
      next => exact (ih mem).later

variable {localInstant : Int → String} {policy : ControlPolicy}

/-- In every interleaving each boundary edge, sent or being sent or handed to the store, names a
peer that the policy let in with the console of that moment, and is what its command was for. -/
theorem edges_sanctioned {tier : ProbingTier} {bootedUs : Int} {owner : Option Nat}
    {labels : List GateStep} {w : GatedPlane}
    (ran : Runs.runSteps (step localInstant policy) (start tier bootedUs owner) labels = some w) :
    ∀ e ∈ w.plane.edges ++ w.plane.handed, e.OnRequest (Sanctioned policy owner labels) := by
  rw [run_eq] at ran
  obtain ⟨plane, ranPlane, rfl⟩ := Option.map_eq_some_iff.mp ran
  have onRequest := ControlPlane.onRequest_run ranPlane
  have stamped (e : BoundaryEdge) (mem : e ∈ plane.edges) :
      e.OnRequest (Sanctioned policy owner labels) :=
    (onRequest.edges e mem).mono fun _ _ asked => sanctioned_of_mem asked
  intro e mem
  rcases List.mem_append.mp mem with edge | handed
  · exact stamped e edge
  · have sent := (edgeRecord_run ranPlane).handed e handed
    exact stamped e (List.mem_append_left _ sent)

theorem edges_sanctioned_rootPauses :
    BoundaryEdge.OnRequest
      (Sanctioned ⟨501, none, []⟩ none [.control (.setObserving false) (some 0) 5, .advance 0 1 false])
      (.observing ⟨1, false, some 0, .control⟩) :=
  @edges_sanctioned (fun _ => "") ⟨501, none, []⟩ .active 0 none _ _ rfl _
    (List.mem_append_left _ List.mem_cons_self)

/-- What refused requests leave: the plane is where it would be without them, every refusal is
told by the log, and in any span of time there are no more lines than minutes, and one. -/
theorem refusals_leave_lines (localInstant : Int → String) (policy : ControlPolicy)
    (w : GatedPlane) (labels : List GateStep) :
    (Runs.runSteps (step localInstant policy) w labels).map GatedPlane.plane =
        Runs.runSteps (ControlPlane.step localInstant) w.plane
          (planeSteps policy w.consoleOwner labels) ∧
      RateLimitedLog.Told refusalLogIntervalNs (refusedNs policy w.consoleOwner labels)
        (refusalLines policy w.consoleOwner labels) ∧
      ∀ fromNs toNs, (∀ nowNs ∈ refusedNs policy w.consoleOwner labels,
          fromNs ≤ nowNs ∧ nowNs ≤ toNs) →
        (refusalLines policy w.consoleOwner labels).length ≤
          (toNs - fromNs) / refusalLogIntervalNs + 1 := by
  have told := RateLimitedLog.told refusalLogIntervalNs (refusedNs policy w.consoleOwner labels)
  refine ⟨?_, told, ?_⟩
  · rw [run_eq, Option.map_map]
    exact Option.map_id'
  · intro fromNs toNs within
    exact RateLimitedLog.lines_bounded (by decide) told within

end GatedPlane

end NetObserver
