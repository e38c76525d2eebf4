import NetObserver.IntervalLoop
import NetObserver.Topology

/-! Operator scans and the topology patrol against pauses and resumes, one shared access at a
time. -/

namespace NetObserver

structure NeighborScan where
  tsUs : Int
  networkKey : Option String
  iface : Option String
  method : String
  target : String
  found : Nat
  durationMs : Nat
  detail : Option String

structure NeighborPort where
  networkKey : Option String
  mac : String
  ip : String
  port : Nat
  tsUs : Int
  banner : Option String

structure NeighborVuln where
  networkKey : Option String
  mac : String
  port : Nat
  cveId : String
  confidence : String
  knownExploited : Bool
  cvss : Option Machine.F64
  tsUs : Int

structure EgressScanHeader where
  tsUs : Int
  iface : String
  verdict : String
  reason : Option String
  durationMs : Nat
  packetCount : Nat
  dstCount : Nat
  byteCount : Nat

structure EgressDst where
  tsUs : Int
  dstIp : String
  packets : Nat
  bytes : Nat

/-- What one rung of a scan did. -/
structure RungOutcome where
  method : String
  target : String
  found : Nat
  durationMs : Nat
  detail : Option String

structure OpenPort where
  mac : String
  ip : String
  port : Nat
  banner : Option String

structure CveMatch where
  mac : String
  port : Nat
  cveId : String
  confidence : String
  knownExploited : Bool
  cvss : Option Machine.F64

/-- What a neighbour scan found, before the clock is read. -/
structure ScanFindings where
  networkKey : Option String
  iface : String
  found : List NeighborObs
  rungs : List RungOutcome
  ports : List OpenPort
  vulns : List CveMatch

structure ScanReport where
  tsUs : Int
  networkKey : Option String
  iface : Option String
  found : List NeighborObs
  scans : List NeighborScan
  ports : List NeighborPort
  vulns : List NeighborVuln

/-- The report of a scan carries one stamp, its rows' too. -/
def ScanFindings.report (f : ScanFindings) (tsUs : Int) : ScanReport where
  tsUs := tsUs
  networkKey := f.networkKey
  iface := some f.iface
  found := f.found
  scans := f.rungs.map fun r =>
    ⟨tsUs, f.networkKey, some f.iface, r.method, r.target, r.found, r.durationMs, r.detail⟩
  ports := f.ports.map fun p => ⟨f.networkKey, p.mac, p.ip, p.port, tsUs, p.banner⟩
  vulns := f.vulns.map fun v =>
    ⟨f.networkKey, v.mac, v.port, v.cveId, v.confidence, v.knownExploited, v.cvss, tsUs⟩

def ScanReport.sample (r : ScanReport) : NeighborsSample where
  tsUs := r.tsUs
  verdict := .ok
  reason := none
  networkKey := r.networkKey
  iface := r.iface
  neighbors := r.found
  services := []
  heard := none

/-- What a received frame announces, which the stamp does not enter into. -/
structure Uplink where
  remoteChassis : String
  remotePort : String
  remoteSystemName : Option String
  capabilities : String
  learnedVia : LearnedVia

def Uplink.link (u : Uplink) (iface : String) (tsUs : Int) : TopologyLink :=
  ⟨iface, u.remoteChassis, u.remotePort, u.remoteSystemName, u.capabilities, u.learnedVia, tsUs⟩

/-- One link for each key, the first of the capture. -/
def latestLinks (links : List TopologyLink) : List TopologyLink :=
  links.foldl (fun latest link =>
    if latest.any fun l => l.sameKey link then latest else latest ++ [link]) []

/-- How a capture of the outgoing packets ended: not started, or its totals and the heaviest
destinations. -/
inductive EgressCaptureOutcome where
  | couldNotStart (reason : String)
  | ran (packetCount dstCount byteCount : Nat) (heaviest : List (String × Nat × Nat))

def egressScan (iface : String) (durationMs : Nat) (tsUs : Int) :
    EgressCaptureOutcome → EgressScanHeader × List EgressDst
  | .couldNotStart reason => (⟨tsUs, iface, "SKIP", some reason, durationMs, 0, 0, 0⟩, [])
  | .ran packetCount dstCount byteCount heaviest =>
    (⟨tsUs, iface, "OK", none, durationMs, packetCount, dstCount, byteCount⟩,
      heaviest.map fun d => ⟨tsUs, d.1, d.2.1, d.2.2⟩)

/-- What a scan leaves: a row, or an event on the bus. -/
inductive ScanRow where
  | neighborScan (row : NeighborScan)
  | neighborPort (row : NeighborPort)
  | neighborVuln (row : NeighborVuln)
  | neighbors (sample : NeighborsSample)
  | topologyLink (link : TopologyLink)
  | egressScan (header : EgressScanHeader)
  | egressDst (row : EgressDst)
  | event (sample : NeighborsSample)

def ScanRow.tsUs : ScanRow → Int
  | neighborScan row => row.tsUs
  | neighborPort row => row.tsUs
  | neighborVuln row => row.tsUs
  | neighbors sample => sample.tsUs
  | topologyLink link => link.tsUs
  | egressScan header => header.tsUs
  | egressDst row => row.tsUs
  | event sample => sample.tsUs

/-- One shared access of a scan that has its findings: a store call, which leaves all its rows or
none, an update of the snapshot, a publish. -/
inductive ScanAction where
  | write (rows : List ScanRow)
  | showNeighbors (sample : NeighborsSample)
  | showTopology (links : List TopologyLink)
  | publish (sample : NeighborsSample)

/-- The rows an action leaves where it goes through. -/
def ScanAction.rows : ScanAction → List ScanRow
  | write rows => rows
  | publish sample => [.event sample]
  | showNeighbors _ | showTopology _ => []

/-- `scan_now` behind its scanner's answer. -/
def ScanReport.actions (r : ScanReport) : List ScanAction :=
  r.scans.map (fun row => .write [.neighborScan row]) ++
    r.ports.map (fun row => .write [.neighborPort row]) ++
    r.vulns.map (fun row => .write [.neighborVuln row]) ++
    [.write [.neighbors r.sample], .showNeighbors r.sample, .publish r.sample]

/-- `run_topology_capture` behind its capture: a quiet one leaves the snapshot as it is. -/
def topologyActions (iface : String) (frames : List (Option Uplink)) (tsUs : Int) :
    List ScanAction :=
  let links := frames.filterMap fun frame => frame.map fun u => u.link iface tsUs
  links.map (fun link => .write [.topologyLink link]) ++
    if links = [] then [] else [.showTopology (latestLinks links)]

/-- `run_egress_capture` behind its capture: the header and the destinations are one write. -/
def egressActions (iface : String) (durationMs : Nat) (outcome : EgressCaptureOutcome)
    (tsUs : Int) : List ScanAction :=
  let (header, rows) := egressScan iface durationMs tsUs outcome
  [.write (.egressScan header :: rows.map .egressDst)]

inductive ScanKind where
  | neighbors
  | topology
  | egress
  | patrol
deriving DecidableEq

inductive Captured where
  | frames (iface : String) (frames : List (Option Uplink))
  | egress (iface : String) (durationMs : Nat) (outcome : EgressCaptureOutcome)

def Captured.actions : Captured → Int → List ScanAction
  | .frames iface received, tsUs => topologyActions iface received tsUs
  | .egress iface durationMs outcome, tsUs => egressActions iface durationMs outcome tsUs

/-- A capture of the packets going out answers an egress scan, one of frames the topology. -/
def ScanKind.takes : ScanKind → Captured → Bool
  | .topology, .frames .. => true
  | .patrol, .frames .. => true
  | .egress, .egress .. => true
  | _, _ => false

/-- Where a reading of the clock stands: the flips before the scan's read of the flag, the
toggles stamped before the clock was read, and its instant. -/
structure ScanStamp where
  flips : Nat
  toggles : Nat
  tsUs : Int

/-- A neighbour scan reads its clock behind its work, a capture before it. -/
inductive ScanPhase where
  | pressed
  | observing (flips : Nat)
  | scanned (flips : Nat) (found : ScanFindings)
  | stamped (stamp : ScanStamp)
  | writing (stamp : ScanStamp) (pending : List ScanAction)
  | done

structure ScanThread where
  kind : ScanKind
  phase : ScanPhase

structure ScanOutput where
  row : ScanRow
  stamp : ScanStamp

/-- The fields of the status snapshot a scan updates. -/
structure ScanSnapshot where
  generatedUs : Int
  neighbors : Option NeighborsSample
  topology : List TopologyLink

def ScanSnapshot.update (s : ScanSnapshot) : ScanAction → ScanSnapshot
  | .showNeighbors sample => { s with generatedUs := sample.tsUs, neighbors := some sample }
  | .showTopology links => { s with topology := links }
  | .write _ | .publish _ => s

/-- The control path with an interval loop, the one clock all of them read, the scans in flight
and what they left. -/
structure ScanState where
  loop : LoopState
  clockUs : Int
  scans : List ScanThread
  snapshot : ScanSnapshot
  outputs : List ScanOutput

def ScanState.start (observing : Bool) (tier : ProbingTier) : ScanState where
  loop := .start observing tier
  clockUs := 0
  scans := []
  snapshot := ⟨0, none, []⟩
  outputs := []

inductive ScanStep where
  | loop (label : LoopStep)
  | press (kind : ScanKind)
  | readFlag (i : Nat)
  | refuse (i : Nat)
  | scan (i : Nat) (found : ScanFindings)
  | stamp (i : Nat) (tsUs : Int)
  | capture (i : Nat) (captured : Captured)
  | act (i : Nat) (through : Bool)

/-- The reading of the clock a step of the loop makes. -/
def LoopStep.reading : LoopStep → Option Int
  | .stampEdge tsUs | .stampTick tsUs => some tsUs
  | _ => none

/-- The toggle under the snapshot lock whose instant is taken. -/
def ControlPhase.pending : ControlPhase → List ObservingEdge
  | .idle | .locked _ => []
  | .stamped b tsUs | .bracketed b tsUs => [⟨tsUs, b, none, .control⟩]

/-- The toggles stamped so far, those the flag has shown before the one under the lock. -/
def LoopState.toggles (d : LoopState) : List ObservingEdge :=
  d.flips.map (fun e => { e with peerUid := none }) ++ d.control.pending

namespace ScanState

def setPhase (d : ScanState) (i : Nat) (t : ScanThread) (phase : ScanPhase) : ScanState :=
  { d with scans := d.scans.set i { t with phase := phase } }

def patrolling (d : ScanState) : Bool :=
  d.scans.any fun t => t.kind == .patrol && !t.phase matches .done

/-- A step of one scan, from where it stands. -/
def threadStep (d : ScanState) (i : Nat) (t : ScanThread) : ScanStep → Option ScanState
  | .readFlag _ =>
    match t.phase with
    | .pressed =>
      some (d.setPhase i t
        (if d.loop.shared.observing then .observing d.loop.flips.length else .done))
    | _ => none
  | .refuse _ =>
    match t.kind, t.phase with
    | .patrol, _ => none
    | _, .observing _ => some (d.setPhase i t .done)
    | _, _ => none
  | .scan _ found =>
    match t.kind, t.phase with
    | .neighbors, .observing flips => some (d.setPhase i t (.scanned flips found))
    | _, _ => none
  | .stamp _ tsUs =>
    if d.clockUs < tsUs then
      let now := { d with clockUs := tsUs }
      match t.kind, t.phase with
      | .neighbors, .scanned flips found =>
        some (now.setPhase i t
          (.writing ⟨flips, d.loop.toggles.length, tsUs⟩ (found.report tsUs).actions))
      | .neighbors, _ => none
      | _, .observing flips =>
        some (now.setPhase i t (.stamped ⟨flips, d.loop.toggles.length, tsUs⟩))
      | _, _ => none
    else none
  | .capture _ captured =>
    match t.phase with
    | .stamped stamp =>
      if t.kind.takes captured then
        some (d.setPhase i t (.writing stamp (captured.actions stamp.tsUs)))
      else none
    | _ => none
  | .act _ through =>
    match t.phase with
    | .writing _ [] => some (d.setPhase i t .done)
    | .writing stamp (action :: pending) =>
      some { d.setPhase i t (.writing stamp pending) with
        snapshot := d.snapshot.update action
        outputs := d.outputs ++ if through then action.rows.map (⟨·, stamp⟩) else [] }
    | _ => none
  | .loop _ | .press _ => none

def ofThread (d : ScanState) (i : Nat) (label : ScanStep) : Option ScanState :=
  d.scans[i]?.bind fun t => d.threadStep i t label

/-- The patrol is one task, which does not tick while its capture runs. -/
def step (d : ScanState) (label : ScanStep) : Option ScanState :=
  match label with
  | .loop l =>
    match l.reading with
    | none => (d.loop.step l).map fun loop => { d with loop := loop }
    | some tsUs =>
      if d.clockUs < tsUs then
        (d.loop.step l).map fun loop => { d with loop := loop, clockUs := tsUs }
      else none
  | .press kind =>
    if kind = .patrol ∧ d.patrolling then none
    else some { d with scans := d.scans ++ [⟨kind, .pressed⟩] }
  | .readFlag i | .refuse i | .scan i _ | .stamp i _ | .capture i _ | .act i _ =>
    d.ofThread i label

end ScanState

/-- Every row a neighbour scan leaves carries the stamp of its report. -/
theorem tsUs_of_mem_report {found : ScanFindings} {tsUs : Int} {action : ScanAction}
    (listed : action ∈ (found.report tsUs).actions) {row : ScanRow} (left : row ∈ action.rows) :
    row.tsUs = tsUs := by
  simp only [ScanReport.actions, ScanFindings.report, List.mem_append, List.mem_map,
    List.mem_cons, List.not_mem_nil, or_false] at listed
  rcases listed with ((scans | ports) | vulns) | written | shown | published
  · obtain ⟨_, ⟨rung, -, rfl⟩, rfl⟩ := scans
    rw [List.mem_singleton.mp left]
    rfl
  · obtain ⟨_, ⟨port, -, rfl⟩, rfl⟩ := ports
    rw [List.mem_singleton.mp left]
    rfl
  · obtain ⟨_, ⟨vuln, -, rfl⟩, rfl⟩ := vulns
    rw [List.mem_singleton.mp left]
    rfl
  · rw [written] at left
    rw [List.mem_singleton.mp left]
    rfl
  · rw [shown] at left
    cases left
  · rw [published] at left
    rw [List.mem_singleton.mp left]
    rfl

theorem tsUs_of_mem_captured {captured : Captured} {tsUs : Int} {action : ScanAction}
    (listed : action ∈ captured.actions tsUs) {row : ScanRow} (left : row ∈ action.rows) :
    row.tsUs = tsUs := by
  cases captured with
  | frames iface frames =>
    simp only [Captured.actions, topologyActions] at listed
    rcases List.mem_append.mp listed with written | shown
    · obtain ⟨link, mapped, rfl⟩ := List.mem_map.mp written
      obtain ⟨frame, -, decoded⟩ := List.mem_filterMap.mp mapped
      obtain ⟨uplink, -, rfl⟩ := Option.map_eq_some_iff.mp decoded
      rw [List.mem_singleton.mp left]
      rfl
    · split at shown
      · cases shown
      · rw [List.mem_singleton.mp shown] at left
        cases left
  | egress iface durationMs outcome =>
    simp only [Captured.actions, egressActions] at listed
    rw [List.mem_singleton.mp listed] at left
    cases outcome with
    | couldNotStart reason =>
      rw [List.mem_singleton.mp left]
      rfl
    | ran packetCount dstCount byteCount heaviest =>
      rcases List.mem_cons.mp left with header | destination
      · rw [header]
        rfl
      · obtain ⟨_, mapped, rfl⟩ := List.mem_map.mp destination
        obtain ⟨d, -, rfl⟩ := List.mem_map.mp mapped
        rfl

/-- The toggles behind the flips a scan's read of the flag showed, stamped before its clock was
read, end with a pause. -/
def ScanOutput.Overtaken (o : ScanOutput) (toggles : List ObservingEdge) : Prop :=
  ¬ EndsObserving ((toggles.take o.stamp.toggles).drop o.stamp.flips)

/-- A reading of the clock among the toggles: those counted lie before it, the others behind. -/
structure ScanStamp.Placed (s : ScanStamp) (toggles : List ObservingEdge) (clockUs : Int) :
    Prop where
  flips : s.flips ≤ s.toggles
  counted : s.toggles ≤ toggles.length
  observing : EndsObserving (toggles.take s.flips)
  before : ∀ e ∈ toggles.take s.toggles, e.tsUs < s.tsUs
  behind : ∀ e ∈ toggles.drop s.toggles, s.tsUs < e.tsUs
  past : s.tsUs ≤ clockUs

theorem ScanStamp.Placed.grow {s : ScanStamp} {toggles new : List ObservingEdge} {clockUs later : Int}
    (placed : s.Placed toggles clockUs) (newer : ∀ e ∈ new, clockUs < e.tsUs)
    (le : clockUs ≤ later) : s.Placed (toggles ++ new) later := by
  obtain ⟨flips, counted, observing, before, behind, past⟩ := placed
  have same {n : Nat} (seen : n ≤ toggles.length) : (toggles ++ new).take n = toggles.take n :=
    List.take_append_of_le_length seen
  refine ⟨flips, ?_, ?_, ?_, ?_, Int.le_trans past le⟩
  · rw [List.length_append]
    omega
  · rwa [same (Nat.le_trans flips counted)]
  · rwa [same counted]
  · intro e mem
    rw [List.drop_append_of_le_length counted] at mem
    rcases List.mem_append.mp mem with old | added
    · exact behind e old
    · exact Int.lt_of_le_of_lt past (newer e added)

/-- A list ends as its part behind a prefix that ends observing does. -/
theorem endsObserving_drop {toggles : List ObservingEdge} {n : Nat}
    (front : EndsObserving (toggles.take n)) :
    EndsObserving (toggles.drop n) ↔ EndsObserving toggles := by
  unfold EndsObserving at front ⊢
  rw [List.getLast?_drop]
  split
  next all =>
    rw [List.take_of_length_le all] at front
    constructor
    · exact fun _ => front
    · intro _ e last
      cases last
  next => exact Iff.rfl

/-- An instant between the toggles of a prefix and those behind it is inside a pause exactly when
the prefix ends with one. -/
theorem insidePause_between {toggles : List ObservingEdge} {n : Nat} {tsUs : Int}
    (counted : n ≤ toggles.length) (upTo : ∀ e ∈ toggles.take n, e.tsUs ≤ tsUs)
    (behind : ∀ e ∈ toggles.drop n, tsUs < e.tsUs) :
    (∃ i, InsidePause toggles i tsUs) ↔ ¬ EndsObserving (toggles.take n) := by
  have split : toggles = toggles.take n ++ toggles.drop n := (List.take_append_drop n toggles).symm
  have length : (toggles.take n).length = n := List.length_take_of_le counted
  constructor
  · rintro ⟨i, p, pause, paused, started, next⟩ ends
    have early : i < n := by
      by_contra late
      have drop : (toggles.drop n)[i - n]? = some p := by
        rw [List.getElem?_drop, show n + (i - n) = i by omega, pause]
      have later := behind p (List.mem_of_getElem? drop)
      omega
    have shown : (toggles.take n)[i]? = some p := by
      rw [List.getElem?_take_of_lt early, pause]
    obtain ⟨r, found⟩ := exists_resume_after ends shown paused
    have whole : (toggles.drop (i + 1)).find? ObservingEdge.observing = some r := by
      rw [split, List.drop_append_of_le_length (by omega), List.find?_append, found]
      rfl
    have later := next r whole
    have earlier := upTo r (List.mem_of_mem_drop (List.mem_of_find?_eq_some found))
    omega
  · intro ends
    unfold EndsObserving at ends
    push Not at ends
    obtain ⟨p, last, notObserving⟩ := ends
    have paused : p.observing = false := by simpa using notObserving
    have started := upTo p (List.mem_of_getLast? last)
    rw [List.getLast?_eq_getElem?, length] at last
    obtain ⟨inside, -⟩ := List.getElem?_eq_some_iff.mp last
    rw [length] at inside
    have pause : toggles[n - 1]? = some p := by
      rwa [List.getElem?_take_of_lt (by omega)] at last
    refine ⟨n - 1, p, pause, paused, started, fun r found => ?_⟩
    rw [show n - 1 + 1 = n by omega] at found
    exact behind r (List.mem_of_find?_eq_some found)

/-- An instant is inside a pause exactly when the newest toggle before it is one. -/
theorem ScanStamp.Placed.insidePause_iff {s : ScanStamp} {toggles : List ObservingEdge}
    {clockUs : Int} (placed : s.Placed toggles clockUs) :
    (∃ i, InsidePause toggles i s.tsUs) ↔ ¬ EndsObserving (toggles.take s.toggles) :=
  insidePause_between placed.counted (fun e mem => Int.le_of_lt (placed.before e mem)) placed.behind

theorem LoopState.tickStep_frame {d d' : LoopState} {label : LoopStep}
    (stepped : d.tickStep label = some d') : d'.flips = d.flips ∧ d'.control = d.control := by
  cases label with
  | readFlag | readEpoch | recheckFlag | recheckEpoch | receiverDropped =>
    simp only [tickStep] at stepped
    split at stepped
    next =>
      cases stepped
      exact ⟨rfl, rfl⟩
    next => cases stepped
  | stampTick tsUs | collect samples =>
    simp only [tickStep] at stepped
    split at stepped
    next =>
      split at stepped
      next =>
        cases stepped
        exact ⟨rfl, rfl⟩
      next => cases stepped
    next => cases stepped
  | send =>
    simp only [tickStep] at stepped
    split at stepped
    next =>
      cases stepped
      exact ⟨rfl, rfl⟩
    next =>
      cases stepped
      exact ⟨rfl, rfl⟩
    next => cases stepped
  | lock | stampEdge | bracket | flip => cases stepped

/-- A step of the control path stamps at most the toggle whose instant it reads, behind all the
others and later than the newest. -/
theorem LoopState.controlStep_toggles {d d' : LoopState} {label : LoopStep}
    (stepped : d.controlStep label = some d') :
    d'.toggles = d.toggles ∧ d'.newestUs = d.newestUs ∨
      ∃ tsUs b, label.reading = some tsUs ∧ d.newestUs < tsUs ∧ d'.newestUs = tsUs ∧
        d'.toggles = d.toggles ++ [⟨tsUs, b, none, .control⟩] := by
  cases label with
  | lock b =>
    simp only [controlStep] at stepped
    split at stepped
    next phase =>
      left
      split at stepped
      next =>
        cases stepped
        exact ⟨rfl, rfl⟩
      next =>
        cases stepped
        rw [toggles, toggles, phase]
        exact ⟨rfl, rfl⟩
    next => cases stepped
  | stampEdge tsUs =>
    simp only [controlStep] at stepped
    split at stepped
    next b phase =>
      split at stepped
      next later =>
        cases stepped
        right
        refine ⟨tsUs, b, rfl, later, rfl, ?_⟩
        rw [toggles, toggles, phase]
        simp [ControlPhase.pending]
      next => cases stepped
    next => cases stepped
  | bracket =>
    simp only [controlStep] at stepped
    split at stepped
    next b tsUs phase =>
      cases stepped
      left
      rw [toggles, toggles, phase]
      exact ⟨rfl, rfl⟩
    next => cases stepped
  | flip peerUid =>
    simp only [controlStep] at stepped
    split at stepped
    next b tsUs phase =>
      cases stepped
      left
      rw [toggles, toggles, phase]
      simp [ControlPhase.pending]
    next => cases stepped
  | readFlag | readEpoch | stampTick | collect | recheckFlag | recheckEpoch | send
  | receiverDropped => cases stepped

/-- A step stamps at most the toggle whose instant it reads, behind all the others. -/
theorem LoopState.toggles_step {d d' : LoopState} {label : LoopStep}
    (stepped : d.step label = some d') :
    d'.toggles = d.toggles ∨
      ∃ tsUs b, label.reading = some tsUs ∧ d'.toggles = d.toggles ++ [⟨tsUs, b, none, .control⟩] := by
  unfold step at stepped
  cases controlled : d.controlStep label with
  | none =>
    rw [controlled, Option.none_or] at stepped
    obtain ⟨flips, control⟩ := tickStep_frame stepped
    left
    rw [toggles, flips, control, toggles]
  | some e =>
    rw [controlled, Option.some_or] at stepped
    cases stepped
    rcases controlStep_toggles controlled with ⟨same, _⟩ | ⟨tsUs, b, read, _, _, grown⟩
    · exact .inl same
    · exact .inr ⟨tsUs, b, read, grown⟩

theorem LoopState.length_flips_le (d : LoopState) : d.flips.length ≤ d.toggles.length := by
  rw [toggles, List.length_append, List.length_map]
  omega

/-- While the flag is set, the flips it has shown end with a resume. -/
theorem LoopState.Sound.endsObserving_flips {d : LoopState} (sound : d.Sound)
    (observing : d.shared.observing = true) : EndsObserving (d.toggles.take d.flips.length) := by
  have shown : d.toggles.take d.flips.length =
      d.flips.map fun e => { e with peerUid := none } := by
    rw [toggles, List.take_append_of_le_length (by rw [List.length_map]), List.take_of_length_le]
    rw [List.length_map]
  intro e last
  rw [shown, List.getLast?_map] at last
  obtain ⟨flip, newest, rfl⟩ := Option.map_eq_some_iff.mp last
  exact (sound.flag flip newest).trans observing

/-- What a scan in flight may rely on. -/
def ScanPhase.Sound (toggles : List ObservingEdge) (clockUs : Int) : ScanPhase → Prop
  | .pressed | .done => True
  | .observing flips | .scanned flips _ =>
    flips ≤ toggles.length ∧ EndsObserving (toggles.take flips)
  | .stamped stamp => stamp.Placed toggles clockUs
  | .writing stamp pending =>
    stamp.Placed toggles clockUs ∧ ∀ action ∈ pending, ∀ row ∈ action.rows, row.tsUs = stamp.tsUs

structure ScanOutput.Sound (o : ScanOutput) (toggles : List ObservingEdge) (clockUs : Int) :
    Prop where
  stamped : o.row.tsUs = o.stamp.tsUs
  placed : o.stamp.Placed toggles clockUs

structure ScanState.Sound (d : ScanState) : Prop where
  loop : d.loop.Sound
  past : ∀ e ∈ d.loop.toggles, e.tsUs ≤ d.clockUs
  scans : ∀ t ∈ d.scans, t.phase.Sound d.loop.toggles d.clockUs
  outputs : ∀ o ∈ d.outputs, o.Sound d.loop.toggles d.clockUs

theorem ScanPhase.Sound.grow {phase : ScanPhase} {toggles new : List ObservingEdge}
    {clockUs later : Int} (sound : phase.Sound toggles clockUs)
    (newer : ∀ e ∈ new, clockUs < e.tsUs) (le : clockUs ≤ later) :
    phase.Sound (toggles ++ new) later := by
  cases phase with
  | pressed | done => trivial
  | observing flips | scanned flips =>
    obtain ⟨seen, observing⟩ := sound
    refine ⟨?_, ?_⟩
    · rw [List.length_append]
      omega
    · rwa [List.take_append_of_le_length seen]
  | stamped stamp => exact ScanStamp.Placed.grow sound newer le
  | writing stamp pending => exact ⟨sound.1.grow newer le, sound.2⟩

theorem ScanState.sound_start (observing : Bool) (tier : ProbingTier) :
    (start observing tier).Sound := by
  refine ⟨LoopState.sound_start observing tier, ?_, ?_, ?_⟩
  · intro e mem
    cases mem
  · intro t mem
    cases mem
  · intro o mem
    cases mem

namespace ScanState

/-- What a step of the loop or a later reading of the clock leaves to the scans. -/
theorem Sound.grow {d : ScanState} (sound : d.Sound) {loop : LoopState} {later : Int}
    (looped : loop.Sound) (new : List ObservingEdge) (toggles : loop.toggles = d.loop.toggles ++ new)
    (newer : ∀ e ∈ new, d.clockUs < e.tsUs ∧ e.tsUs ≤ later) (le : d.clockUs ≤ later) :
    Sound { d with loop := loop, clockUs := later } := by
  obtain ⟨-, past, scans, outputs⟩ := sound
  have newer' : ∀ e ∈ new, d.clockUs < e.tsUs := fun e mem => (newer e mem).1
  refine ⟨looped, ?_, ?_, ?_⟩
  · intro e mem
    rw [toggles] at mem
    rcases List.mem_append.mp mem with old | added
    · exact Int.le_trans (past e old) le
    · exact (newer e added).2
  · intro t mem
    rw [toggles]
    exact (scans t mem).grow newer' le
  · intro o mem
    rw [toggles]
    exact ⟨(outputs o mem).stamped, (outputs o mem).placed.grow newer' le⟩

theorem sound_loop {d : ScanState} (sound : d.Sound) {label : LoopStep} {loop : LoopState}
    (stepped : d.loop.step label = some loop) {later : Int} (le : d.clockUs ≤ later)
    (reading : ∀ tsUs, label.reading = some tsUs → d.clockUs < tsUs ∧ tsUs ≤ later) :
    Sound { d with loop := loop, clockUs := later } := by
  have looped := LoopState.sound_step stepped sound.loop
  rcases LoopState.toggles_step stepped with same | ⟨tsUs, b, read, toggles⟩
  · refine sound.grow looped [] (by rw [same, List.append_nil]) ?_ le
    intro e mem
    cases mem
  · refine sound.grow looped _ toggles ?_ le
    intro e mem
    rw [List.mem_singleton.mp mem]
    exact reading tsUs read

/-- A scan that moves on to a sound phase leaves the state sound. -/
theorem Sound.setPhase {d : ScanState} (sound : d.Sound) {i : Nat} {t : ScanThread}
    {phase : ScanPhase} (next : phase.Sound d.loop.toggles d.clockUs) :
    (d.setPhase i t phase).Sound := by
  obtain ⟨loop, past, scans, outputs⟩ := sound
  refine ⟨loop, past, ?_, outputs⟩
  intro u mem
  rcases List.mem_or_eq_of_mem_set mem with old | rfl
  · exact scans u old
  · exact next

theorem Sound.tick {d : ScanState} (sound : d.Sound) {tsUs : Int} (later : d.clockUs < tsUs) :
    Sound { d with clockUs := tsUs } := by
  refine sound.grow sound.loop [] (List.append_nil _).symm ?_ (Int.le_of_lt later)
  intro e mem
  cases mem

/-- The clock read by a scan that saw the flag set. -/
theorem Sound.placed {d : ScanState} (sound : d.Sound) {flips : Nat} {tsUs : Int}
    (seen : flips ≤ d.loop.toggles.length) (observing : EndsObserving (d.loop.toggles.take flips))
    (later : d.clockUs < tsUs) :
    ScanStamp.Placed ⟨flips, d.loop.toggles.length, tsUs⟩ d.loop.toggles tsUs := by
  refine ⟨seen, Nat.le_refl _, observing, ?_, ?_, Int.le_refl _⟩
  · intro e mem
    rw [List.take_length] at mem
    exact Int.lt_of_le_of_lt (sound.past e mem) later
  · intro e mem
    rw [List.drop_length] at mem
    cases mem

theorem sound_threadStep {d d' : ScanState} {i : Nat} {t : ScanThread} {label : ScanStep}
    (mem : t ∈ d.scans) (stepped : d.threadStep i t label = some d') (sound : d.Sound) :
    d'.Sound := by
  have here := sound.scans t mem
  cases label with
  | readFlag =>
    simp only [threadStep] at stepped
    split at stepped
    next =>
      cases stepped
      refine sound.setPhase ?_
      cases observing : d.loop.shared.observing with
      | false => trivial
      | true => exact ⟨d.loop.length_flips_le, sound.loop.endsObserving_flips observing⟩
    next => cases stepped
  | refuse =>
    simp only [threadStep] at stepped
    split at stepped
    next => cases stepped
    next =>
      cases stepped
      exact sound.setPhase trivial
    next => cases stepped
  | scan j found =>
    simp only [threadStep] at stepped
    split at stepped
    next flips kind phase =>
      cases stepped
      rw [phase] at here
      exact sound.setPhase here
    next => cases stepped
  | stamp j tsUs =>
    simp only [threadStep] at stepped
    split at stepped
    next later =>
      split at stepped
      next flips found kind phase =>
        cases stepped
        rw [phase] at here
        obtain ⟨seen, observing⟩ := here
        refine (sound.tick later).setPhase ⟨sound.placed seen observing later, ?_⟩
        exact fun action listed row left => tsUs_of_mem_report listed left
      next => cases stepped
      next flips phase _ =>
        cases stepped
        rw [phase] at here
        obtain ⟨seen, observing⟩ := here
        exact (sound.tick later).setPhase (sound.placed seen observing later)
      next => cases stepped
    next => cases stepped
  | capture j captured =>
    simp only [threadStep] at stepped
    split at stepped
    next stamp phase =>
      split at stepped
      next =>
        cases stepped
        rw [phase] at here
        refine sound.setPhase ⟨here, ?_⟩
        exact fun action listed row left => tsUs_of_mem_captured listed left
      next => cases stepped
    next => cases stepped
  | act j through =>
    simp only [threadStep] at stepped
    split at stepped
    next =>
      cases stepped
      exact sound.setPhase trivial
    next stamp action pending phase =>
      cases stepped
      rw [phase] at here
      obtain ⟨placed, stamps⟩ := here
      have rest : (ScanPhase.writing stamp pending).Sound d.loop.toggles d.clockUs :=
        ⟨placed, fun a listed => stamps a (List.mem_cons_of_mem action listed)⟩
      obtain ⟨loop, past, scans, outputs⟩ := sound.setPhase (i := i) (t := t) rest
      refine ⟨loop, past, scans, ?_⟩
      intro o left
      rcases List.mem_append.mp left with old | new
      · exact outputs o old
      · cases through with
        | false => cases new
        | true =>
          obtain ⟨row, listed, rfl⟩ := List.mem_map.mp new
          exact ⟨stamps action List.mem_cons_self row listed, placed⟩
    next => cases stepped
  | loop | press => cases stepped

theorem sound_step {d d' : ScanState} {label : ScanStep} (stepped : d.step label = some d')
    (sound : d.Sound) : d'.Sound := by
  have ofThread {i : Nat} (stepped : d.ofThread i label = some d') : d'.Sound := by
    obtain ⟨t, found, stepped⟩ := Option.bind_eq_some_iff.mp stepped
    exact sound_threadStep (List.mem_of_getElem? found) stepped sound
  cases label with
  | loop l =>
    simp only [step] at stepped
    split at stepped
    next read =>
      obtain ⟨loop, looped, rfl⟩ := Option.map_eq_some_iff.mp stepped
      refine sound_loop sound looped (Int.le_refl _) ?_
      intro tsUs reading
      rw [read] at reading
      cases reading
    next tsUs read =>
      split at stepped
      next later =>
        obtain ⟨loop, looped, rfl⟩ := Option.map_eq_some_iff.mp stepped
        refine sound_loop sound looped (Int.le_of_lt later) ?_
        intro tsUs' reading
        rw [read] at reading
        cases reading
        exact ⟨later, Int.le_refl _⟩
      next => cases stepped
  | press kind =>
    simp only [step] at stepped
    split at stepped
    next => cases stepped
    next =>
      cases stepped
      obtain ⟨loop, past, scans, outputs⟩ := sound
      refine ⟨loop, past, ?_, outputs⟩
      intro t mem
      rcases List.mem_append.mp mem with old | new
      · exact scans t old
      · rw [List.mem_singleton.mp new]
        trivial
  | readFlag | refuse | scan | stamp | capture | act => exact ofThread stepped

end ScanState

/-- Over every interleaving, a row or an event of a scan lies inside a pause exactly when, of the
toggles stamped behind the flips its read of the flag showed and before it read its clock, the
newest is a pause. -/
theorem scan_outside_pauses_iff {observing : Bool} {tier : ProbingTier} {labels : List ScanStep}
    {d : ScanState} (ran : Runs.runSteps ScanState.step (.start observing tier) labels = some d) :
    ∀ o ∈ d.outputs, (∀ i, ¬ InsidePause d.loop.toggles i o.row.tsUs) ↔
      ¬ o.Overtaken d.loop.toggles := by
  intro o mem
  have sound := Runs.runSteps_invariant (fun _ _ _ => ScanState.sound_step) ran
    (ScanState.sound_start observing tier)
  obtain ⟨stamped, placed⟩ := sound.outputs o mem
  have front : EndsObserving ((d.loop.toggles.take o.stamp.toggles).take o.stamp.flips) := by
    rw [List.take_take, Nat.min_eq_left placed.flips]
    exact placed.observing
  rw [← not_exists, stamped, placed.insidePause_iff, ScanOutput.Overtaken, endsObserving_drop front]

/-- A scan pressed while observing, at work over a pause, and a resume after its last write. -/
def scanAcrossPause : List ScanStep :=
  [.press .neighbors, .readFlag 0, .loop (.lock false), .loop (.stampEdge 10), .loop .bracket,
    .loop (.flip 501),
    .scan 0 ⟨none, "en0", [], [⟨"sweep", "10.0.0.0/24", 0, 9, some "254/254 probed"⟩], [], []⟩,
    .stamp 0 20, .act 0 true, .act 0 true, .act 0 true, .act 0 true, .loop (.lock true),
    .loop (.stampEdge 30), .loop .bracket, .loop (.flip 501)]

def scanAcrossPauseToggles : List ObservingEdge :=
  [⟨10, false, none, .control⟩, ⟨30, true, none, .control⟩]

theorem scan_row_inside_a_pause :
    (Runs.runSteps ScanState.step (.start true .active) scanAcrossPause).map
        (fun d => (d.loop.toggles, d.outputs.map fun o => o.row)) =
      some (scanAcrossPauseToggles,
        [.neighborScan ⟨20, none, some "en0", "sweep", "10.0.0.0/24", 0, 9, some "254/254 probed"⟩,
          .neighbors ⟨20, .ok, none, none, some "en0", [], [], none⟩,
          .event ⟨20, .ok, none, none, some "en0", [], [], none⟩]) ∧
      InsidePause scanAcrossPauseToggles 0 20 := by
  refine ⟨rfl, ⟨10, false, none, .control⟩, rfl, rfl, by decide, ?_⟩
  intro r found
  cases found
  decide

/-- A patrol stamped before a pause that its capture runs into. -/
def patrolAcrossPause : List ScanStep :=
  [.press .patrol, .readFlag 0, .stamp 0 5, .loop (.lock false), .loop (.stampEdge 10),
    .loop .bracket, .loop (.flip 501),
    .capture 0 (.frames "en0" [none, some ⟨"switch", "ge-0/0/1", none, "bridge", .lldp⟩]),
    .act 0 true]

theorem scan_outside_pauses_iff_patrolAcrossPause :
    (Runs.runSteps ScanState.step (.start true .active) patrolAcrossPause).map
        (fun d => (d.loop.toggles, d.outputs.map fun o => o.row)) =
      some ([⟨10, false, none, .control⟩],
        [.topologyLink ⟨"en0", "switch", "ge-0/0/1", none, "bridge", .lldp, 5⟩]) ∧
      ∀ i, ¬ InsidePause [⟨10, false, none, .control⟩] i 5 := by
  refine ⟨rfl, ?_⟩
  refine (@scan_outside_pauses_iff true .active patrolAcrossPause _ rfl
    ⟨.topologyLink ⟨"en0", "switch", "ge-0/0/1", none, "bridge", .lldp, 5⟩, ⟨0, 0, 5⟩⟩
    (List.mem_singleton_self _)).mpr ?_
  intro overtaken
  refine overtaken ?_
  intro e last
  cases last

end NetObserver
