import NetObserver.Consumer
import NetObserver.IncidentRecord
import NetObserver.Rule

/-! Lives of the daemon over one record: each begins with the startup close and may end between
any two writes. -/

namespace NetObserver

def ruleIds : List String :=
  ["wedge", "gw-drop", "gw-change", "gw-mac-change", "roam", "wifi-churn",
    "neighbor-mac-collision", "fakeip", "starvation", "endpoint-block", "per-client-block",
    "ban-cycle", "fakeip-hijack", "established-stall", "portal", "singbox-no-route",
    "singbox-dial-timeout", "endpoint-dial-stall"]

theorem Rule.condition_id (localInstant : Int → String) (r : Rule) :
    (r.condition localInstant).id ∈ ruleIds := by
  induction r with
  | gated inner requireDirect loadBelow settleUs ih => exact ih
  | wedge | gwDrop | gwChange | gwMacChange | roam | wifiChurn | neighborMacCollision | fakeIp
  | starvation | endpointBlock | perClientBlock | banCycle | fakeIpHijack | establishedStall
  | portal | singboxNoRoute | singboxDialTimeout | endpointDialStall =>
    exact List.elem_iff.mp rfl

/-- No rule's id ends in a dash. -/
theorem Rule.dashless (localInstant : Int → String) (r : Rule) :
    Dashless (r.condition localInstant).id := by
  have literals : ∀ id ∈ ruleIds, Dashless id := by decide
  exact literals _ (r.condition_id localInstant)

/-- A trigger of the daemon's table. -/
structure DaemonRule where
  rule : Rule
  handlers : List IncidentHandler
  backoffUs : Int

def DaemonRule.trigger (localInstant : Int → String) (r : DaemonRule) : Trigger IncidentHandler :=
  .new (r.rule.condition localInstant) r.handlers r.backoffUs

/-- One process past its startup, with the writes its handlers still have to make for the sample
it took last. -/
structure Life where
  consumer : Consumer IncidentHandler
  pending : List IncidentWrite

/-- What a startup meets: its rules and time zone, whether its read of the newest sample succeeds,
its clock, and whether its closing write does. -/
structure Startup where
  rules : List DaemonRule
  localInstant : Int → String
  readOk : Bool
  nowUs : Int
  closeOk : Bool

/-- The record on disk and the process over it, if one runs. -/
structure Lives where
  record : IncidentRecord
  life : Option Life

inductive LifeStep where
  | startup (su : Startup)
  | takeSample (sample : Sample) (landed : Nat) (shared : Shared) (now : Nat)
  | write (ok : Bool)
  | scan (report : NeighborsSample) (landed : Nat)
  | prune (table : SampleTable) (cutoffUs : Int) (ok : Bool)
  | crash

namespace Startup

/-- The newest sample's instant, or now where the record has none or could not be read. -/
def staleCloseTs (su : Startup) (r : IncidentRecord) : Int :=
  if su.readOk then r.latestSampleTsUs.getD su.nowUs else su.nowUs

def closeStale (su : Startup) (r : IncidentRecord) : IncidentRecord :=
  if su.closeOk then r.closeOpenIncidents (su.staleCloseTs r) else r

def life (su : Startup) : Life :=
  ⟨.new ⟨su.rules.map (DaemonRule.trigger su.localInstant)⟩, []⟩

end Startup

/-- The writes that the recording handlers among the addressed ones make. -/
def recordWrites (e : TriggerEngine IncidentHandler) (calls : List Delivery) :
    List IncidentWrite :=
  calls.flatMap fun d =>
    match e.triggers[d.1]?.bind fun t => t.handlers[d.2.1]? with
    | some .record => d.2.2.writes
    | _ => []

namespace Lives

def fresh : Lives := ⟨.empty, none⟩

/-- The sample is written, then judged; what the handlers write of it follows write by write. -/
def takeSample (r : IncidentRecord) (l : Life) (sample : Sample) (landed : Nat) (shared : Shared)
    (now : Nat) : Lives :=
  let turn := l.consumer.take shared sample now
  ⟨r.writeSample sample landed, some ⟨turn.done, recordWrites l.consumer.engine turn.calls⟩⟩

def step (s : Lives) : LifeStep → Option Lives
  | .startup su =>
    match s.life with
    | none => some ⟨su.closeStale s.record, some su.life⟩
    | some _ => none
  | .takeSample sample landed shared now =>
    match s.life with
    | some ⟨consumer, []⟩ => some (takeSample s.record ⟨consumer, []⟩ sample landed shared now)
    | _ => none
  | .write ok =>
    match s.life with
    | some ⟨consumer, w :: pending⟩ =>
      some ⟨if ok then s.record.write w else s.record, some ⟨consumer, pending⟩⟩
    | _ => none
  | .scan report landed =>
    match s.life with
    | some l => some ⟨s.record.writeSample (.neighbors report) landed, some l⟩
    | none => none
  | .prune table cutoffUs ok =>
    match s.life with
    | some l => some ⟨if ok then s.record.pruneOlderThan table cutoffUs else s.record, some l⟩
    | none => none
  | .crash => some { s with life := none }

end Lives

/-- What a step does, each write and each prune done or failed. -/
theorem Lives.step_cases {s t : Lives} {step : LifeStep} (stepped : s.step step = some t) :
    (∃ su, step = .startup su ∧ t = ⟨su.closeStale s.record, some su.life⟩) ∨
    (∃ sample landed shared now consumer, step = .takeSample sample landed shared now ∧
      s.life = some ⟨consumer, []⟩ ∧
      t = takeSample s.record ⟨consumer, []⟩ sample landed shared now) ∨
    (∃ consumer w pending r, s.life = some ⟨consumer, w :: pending⟩ ∧
      (r = s.record ∨ r = s.record.write w) ∧ t = ⟨r, some ⟨consumer, pending⟩⟩) ∨
    (∃ report landed l, s.life = some l ∧
      t = ⟨s.record.writeSample (.neighbors report) landed, some l⟩) ∨
    (∃ table cutoffUs ok r l, step = .prune table cutoffUs ok ∧ s.life = some l ∧
      (r = s.record ∨ r = s.record.pruneOlderThan table cutoffUs) ∧ t = ⟨r, some l⟩) ∨
    t = ⟨s.record, none⟩ := by
  cases step with
  | startup su =>
    simp only [Lives.step] at stepped
    split at stepped
    next => exact .inl ⟨su, rfl, (Option.some.inj stepped).symm⟩
    next => cases stepped
  | takeSample sample landed shared now =>
    simp only [Lives.step] at stepped
    split at stepped
    next consumer running =>
      exact .inr (.inl ⟨sample, landed, shared, now, consumer, rfl, running,
        (Option.some.inj stepped).symm⟩)
    next => cases stepped
  | write ok =>
    simp only [Lives.step] at stepped
    split at stepped
    next consumer w pending running =>
      refine .inr (.inr (.inl ⟨consumer, w, pending, _, running, ?_,
        (Option.some.inj stepped).symm⟩))
      cases ok with
      | true => exact .inr rfl
      | false => exact .inl rfl
    next => cases stepped
  | scan report landed =>
    simp only [Lives.step] at stepped
    split at stepped
    next l running =>
      exact .inr (.inr (.inr (.inl ⟨report, landed, l, running, (Option.some.inj stepped).symm⟩)))
    next => cases stepped
  | prune table cutoffUs ok =>
    simp only [Lives.step] at stepped
    split at stepped
    next l running =>
      refine .inr (.inr (.inr (.inr (.inl ⟨table, cutoffUs, ok, _, l, rfl, running, ?_,
        (Option.some.inj stepped).symm⟩))))
      cases ok with
      | true => exact .inr rfl
      | false => exact .inl rfl
    next => cases stepped
  | crash => exact .inr (.inr (.inr (.inr (.inr (Option.some.inj stepped).symm))))

/-- A startup of a run, with the record it finds and the one its close leaves. -/
def Started (steps : List LifeStep) (su : Startup) (before after : IncidentRecord) : Prop :=
  ∃ past rest s t, steps = past ++ .startup su :: rest ∧
    Runs.runSteps Lives.step .fresh past = some s ∧ s.step (.startup su) = some t ∧
    s.record = before ∧ t.record = after

/-- Every open incident can be closed no earlier than it was opened: the closing write succeeds,
and the record read has a sample at or after the incident's opening or, without a newest sample
to read, the clock is not behind it. -/
structure Startup.Meets (su : Startup) (r : IncidentRecord) : Prop where
  closes : ∀ i ∈ r.incidents, i.closedUs = none → su.closeOk = true
  reaches : ∀ i ∈ r.incidents, i.closedUs = none →
    if su.readOk = true ∧ r.samples ≠ [] then ∃ row ∈ r.samples, i.openedUs ≤ row.2
    else i.openedUs ≤ su.nowUs

end NetObserver
