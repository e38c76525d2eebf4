import NetObserver.Consumer
import NetObserver.LinkConditions
import NetObserver.Timeline

/-! At which instant the consumer closes an incident, over every interleaving of control
steps, queued samples and consumer turns. -/

namespace NetObserver

open Timeline

variable {η : Type*}

inductive EdgeKind where
  | pause
  | resume
  | tierSwitch
  | mark
deriving DecidableEq

/-- An edge as the control path published it; a mark is an experiment's edge that moved nothing. -/
structure SessionEdge where
  kind : EdgeKind
  tsUs : Int
deriving DecidableEq

def SessionEdge.endsSession (e : SessionEdge) : Bool :=
  e.kind == .pause || e.kind == .tierSwitch

def SessionEdge.movesEpoch (e : SessionEdge) : Bool :=
  e.kind == .resume || e.kind == .tierSwitch

def ObservingEdge.sessionEdge (e : ObservingEdge) : SessionEdge :=
  ⟨if e.observing then .resume else .pause, e.tsUs⟩

def Switched.sessionEdge (sw : Switched) : SessionEdge :=
  ⟨if sw.edge.tier = sw.was then .mark else .tierSwitch, sw.edge.tsUs⟩

def firstSessionEnd (edges : List SessionEdge) : Option SessionEdge :=
  edges.find? SessionEdge.endsSession

/-- An incident `close_all` closed, with what had happened by then: every edge published, how
many of them when the consumer last applied an epoch (`applied`) and when the sample that
opened the incident was stamped (`stamped`), and the epoch it applies now. -/
structure Closing where
  incidentId : String
  openedUs : Int
  closedUs : Int
  published : List SessionEdge
  applied : Nat
  stamped : Nat
  epochUs : Int

/-- The daemon with the samples in its channel, and the history of its edges and closings. A
sample in the channel is queued with the number of edges published when it was stamped. -/
structure Daemon (η : Type*) where
  shared : Shared
  channel : List (Sample × Nat)
  consumer : Consumer η
  published : List SessionEdge
  applied : Nat
  openedBy : Nat → Nat
  closings : List Closing

namespace Daemon

def start (tier : ProbingTier) (rules : List (Condition × List η × Int)) : Daemon η where
  shared := .start tier
  channel := []
  consumer := .new ⟨rules.map fun rule => Trigger.new rule.1 rule.2.1 rule.2.2⟩
  published := []
  applied := 0
  openedBy := fun _ => 0
  closings := []

end Daemon

inductive DaemonStep where
  | setObserving (b : Bool) (peerUid : Nat) (tsUs : Int)
  | switchProbing (target : ProbingTier → Except String ProbingTier) (peerUid : Option Nat)
      (reason : ProbingReason) (policy : EdgePolicy) (tsUs : Int)
  | queue (sample : Sample) (stamped : Nat)
  | consume (now : Nat)

namespace Daemon

/-- An edge is published at an instant past every earlier one's. -/
def publish (d : Daemon η) (shared : Shared) (edge : SessionEdge) : Option (Daemon η) :=
  if newest SessionEdge.tsUs d.published < edge.tsUs then
    some { d with shared := shared, published := d.published ++ [edge] }
  else none

def hasOpen (engine : TriggerEngine η) (i : Nat) : Bool :=
  engine.triggers[i]?.any fun t => t.openIncident.isSome

/-- The incidents an applied edge closes, with the stamps its handlers are told. -/
def closingsAt (d : Daemon η) (gate : ResumeGate) : List Closing :=
  d.consumer.engine.triggers.zipIdx.flatMap fun (t, i) =>
    (t.closeOpen (Consumer.closedAtUs d.shared.sessionEndUs gate.appliedResumeUs)).2.filterMap fun
      | .onClear id closedUs =>
        t.openIncident.map fun opened =>
          ⟨id, opened.2, closedUs, d.published, d.applied, d.openedBy i, gate.appliedResumeUs⟩
      | .onFire .. => none

/-- One turn of the consumer on the oldest queued sample. -/
def consume (d : Daemon η) (sample : Sample) (stamped : Nat) (rest : List (Sample × Nat))
    (now : Nat) : Daemon η :=
  let turn := d.consumer.take d.shared sample now
  { d with
    shared := turn.shared
    channel := rest
    consumer := turn.done
    applied := if turn.accepted then d.published.length else d.applied
    openedBy := fun i =>
      if !hasOpen turn.edged.engine i && hasOpen turn.done.engine i then stamped else d.openedBy i
    closings := d.closings ++ if turn.accepted then d.closingsAt turn.edged.gate else [] }

def step (d : Daemon η) : DaemonStep → Option (Daemon η)
  | .setObserving b peerUid tsUs =>
    match setObserving d.shared b peerUid tsUs with
    | (shared, some edge) => d.publish shared edge.sessionEdge
    | (_, none) => some d
  | .switchProbing target peerUid reason policy tsUs =>
    match switchProbing d.shared target peerUid reason policy tsUs with
    | (shared, .ok (some sw)) => d.publish shared sw.sessionEdge
    | _ => some d
  | .queue sample stamped =>
    if stamped ≤ d.published.length then
      some { d with channel := d.channel ++ [(sample, stamped)] }
    else none
  | .consume now =>
    match d.channel with
    | [] => some d
    | (sample, stamped) :: rest => some (d.consume sample stamped rest now)

end Daemon

/-- The close the incident should have had: at the first session end published after the sample
that opened it was stamped, and at no other edge but through the clamp. -/
structure Closing.Right (c : Closing) (f : SessionEdge) : Prop where
  first : firstSessionEnd (c.published.drop c.stamped) = some f
  closed : c.closedUs = max c.openedUs f.tsUs
  noOther : ∀ e ∈ c.published, e ≠ f → c.closedUs = e.tsUs → c.closedUs = c.openedUs

/-- The instant the consumer takes for the end of the session: the first end published since it
last applied an epoch, else the epoch it applies. -/
def Closing.takenUs (c : Closing) : Int :=
  ((firstSessionEnd (c.published.drop c.applied)).map SessionEdge.tsUs).getD c.epochUs

/-- The first session end since the consumer last applied an epoch is the first one since the
opening sample was stamped, or neither instant lies past the opening. -/
def Closing.EndsWithSession (c : Closing) : Prop :=
  ∃ f, firstSessionEnd (c.published.drop c.stamped) = some f ∧
    (firstSessionEnd (c.published.drop c.applied) = some f ∨
      c.takenUs ≤ c.openedUs ∧ f.tsUs ≤ c.openedUs)

/-- What the shared atomics hold of the edges no turn has applied yet. -/
structure Daemon.Consistent (d : Daemon η) : Prop where
  rising : Rising SessionEdge.tsUs d.published
  positive : ∀ e ∈ d.published, 0 < e.tsUs
  applied : d.applied ≤ d.published.length
  ended : d.shared.sessionEndUs =
    ((firstSessionEnd (d.published.drop d.applied)).map SessionEdge.tsUs).getD 0
  epoch : d.shared.resumeAtUs = d.consumer.gate.appliedResumeUs ∨
    ∃ e ∈ d.published.drop d.applied, e.tsUs = d.shared.resumeAtUs

theorem consistent_start (tier : ProbingTier) (rules : List (Condition × List η × Int)) :
    (Daemon.start tier rules).Consistent :=
  ⟨rising_nil _, fun e mem => (by cases mem), Nat.le_refl 0, rfl, .inl rfl⟩

theorem firstSessionEnd_snoc (edges : List SessionEdge) (edge : SessionEdge) :
    firstSessionEnd (edges ++ [edge]) =
      (firstSessionEnd edges).or (if edge.endsSession then some edge else none) := by
  unfold firstSessionEnd
  rw [List.find?_append]
  cases ends : edge.endsSession <;> simp [ends]

/-- Publishing an edge keeps the atomics consistent when they take it in: a session end is
recorded unless one is already, and an epoch becomes the edge's instant. -/
theorem consistent_publish {d d' : Daemon η} {shared : Shared} {edge : SessionEdge}
    (inv : d.Consistent) (published : d.publish shared edge = some d')
    (ended : shared.sessionEndUs =
      if edge.endsSession then firstEnd d.shared.sessionEndUs edge.tsUs else d.shared.sessionEndUs)
    (epoch : shared.resumeAtUs = if edge.movesEpoch then edge.tsUs else d.shared.resumeAtUs) :
    d'.Consistent := by
  unfold Daemon.publish at published
  split at published
  next later =>
    cases published
    have positive : 0 < edge.tsUs := by
      have zero : 0 ≤ newest SessionEdge.tsUs d.published := by
        unfold newest
        cases last : d.published.getLast? with
        | none => simp
        | some e => exact Int.le_of_lt (inv.positive e (List.mem_of_getLast? last))
      omega
    have behind : (d.published ++ [edge]).drop d.applied = d.published.drop d.applied ++ [edge] :=
      List.drop_append_of_le_length inv.applied
    refine ⟨inv.rising.snoc later, ?_, ?_, ?_, ?_⟩
    · intro e mem
      rcases List.mem_append.mp mem with old | new
      · exact inv.positive e old
      · rw [List.mem_singleton.mp new]
        exact positive
    · rw [List.length_append]
      exact Nat.le_trans inv.applied (Nat.le_add_right _ _)
    · change shared.sessionEndUs = _
      rw [behind, firstSessionEnd_snoc, ended, inv.ended]
      cases found : firstSessionEnd (d.published.drop d.applied) with
      | none => cases ends : edge.endsSession <;> simp [firstEnd]
      | some e =>
        have mem : e ∈ d.published := List.mem_of_mem_drop (List.mem_of_find?_eq_some found)
        have notZero : e.tsUs ≠ 0 := (inv.positive e mem).ne'
        cases ends : edge.endsSession <;> simp [firstEnd, notZero]
    · change shared.resumeAtUs = _ ∨ ∃ e ∈ (d.published ++ [edge]).drop d.applied, _
      rw [behind, epoch]
      cases moves : edge.movesEpoch with
      | true => exact .inr ⟨edge, by simp, rfl⟩
      | false =>
        rcases inv.epoch with same | ⟨e, mem, eq⟩
        · exact .inl same
        · exact .inr ⟨e, List.mem_append_left _ mem, eq⟩
  next => cases published

theorem consistent_setObserving {d d' : Daemon η} {b : Bool} {peerUid : Nat} {tsUs : Int}
    (inv : d.Consistent) (stepped : d.step (.setObserving b peerUid tsUs) = some d') :
    d'.Consistent := by
  simp only [Daemon.step, setObserving] at stepped
  by_cases same : d.shared.observing = b
  · simp only [same, if_true, Option.some.injEq] at stepped
    exact stepped ▸ inv
  · simp only [same, if_false] at stepped
    cases b with
    | true => exact consistent_publish inv stepped rfl rfl
    | false => exact consistent_publish inv stepped rfl rfl

theorem consistent_switchProbing {d d' : Daemon η}
    {target : ProbingTier → Except String ProbingTier} {peerUid : Option Nat}
    {reason : ProbingReason} {policy : EdgePolicy} {tsUs : Int} (inv : d.Consistent)
    (stepped : d.step (.switchProbing target peerUid reason policy tsUs) = some d') :
    d'.Consistent := by
  simp only [Daemon.step] at stepped
  rcases switchProbing_cases d.shared target peerUid reason policy tsUs with
    ⟨answer, silent, eq⟩ | ⟨_, eq⟩ | ⟨tier, _, moved, eq⟩
  · rw [eq] at stepped
    rcases answer with message | _ | sw
    · exact (Option.some.inj stepped) ▸ inv
    · exact (Option.some.inj stepped) ▸ inv
    · exact absurd rfl (silent sw)
  · rw [eq] at stepped
    have kind : (Switched.sessionEdge ⟨⟨tsUs, d.shared.probing, peerUid, reason⟩,
        d.shared.probing⟩) = ⟨.mark, tsUs⟩ := by
      simp [Switched.sessionEdge]
    simp only [kind] at stepped
    exact consistent_publish inv stepped rfl rfl
  · rw [eq] at stepped
    have kind : (Switched.sessionEdge ⟨⟨tsUs, tier, peerUid, reason⟩, d.shared.probing⟩) =
        ⟨.tierSwitch, tsUs⟩ := by
      simp [Switched.sessionEdge, moved]
    simp only [kind] at stepped
    exact consistent_publish inv stepped rfl rfl

theorem consistent_consume {d : Daemon η} (sample : Sample) (stamped : Nat)
    (rest : List (Sample × Nat)) (now : Nat) (inv : d.Consistent) :
    (d.consume sample stamped rest now).Consistent := by
  have epoch := d.consumer.take_applied d.shared sample now
  cases accepted : (d.consumer.take d.shared sample now).accepted with
  | true =>
    have shared := Consumer.take_shared_accepted accepted
    refine ⟨inv.rising, inv.positive, ?_, ?_, ?_⟩
    · simp [Daemon.consume, accepted]
    · simp [Daemon.consume, accepted, shared, firstSessionEnd]
    · exact .inl (by simp [Daemon.consume, shared, epoch])
  | false =>
    have shared := Consumer.take_shared_refused accepted
    refine ⟨inv.rising, inv.positive, ?_, ?_, ?_⟩
    · simpa [Daemon.consume, accepted] using inv.applied
    · simpa [Daemon.consume, accepted, shared] using inv.ended
    · exact .inl (by simp [Daemon.consume, shared, epoch])

theorem consistent_step {d d' : Daemon η} {label : DaemonStep} (stepped : d.step label = some d')
    (inv : d.Consistent) : d'.Consistent := by
  cases label with
  | setObserving b peerUid tsUs => exact consistent_setObserving inv stepped
  | switchProbing target peerUid reason policy tsUs => exact consistent_switchProbing inv stepped
  | queue sample stamped =>
    simp only [Daemon.step] at stepped
    split at stepped
    next =>
      cases stepped
      exact ⟨inv.rising, inv.positive, inv.applied, inv.ended, inv.epoch⟩
    next => cases stepped
  | consume now =>
    simp only [Daemon.step] at stepped
    cases queued : d.channel with
    | nil =>
      simp only [queued, Option.some.injEq] at stepped
      exact stepped ▸ inv
    | cons head rest =>
      simp only [queued, Option.some.injEq] at stepped
      exact stepped ▸ consistent_consume head.1 head.2 rest now inv

/-- What a closing records agrees with the atomics it was made from. -/
structure Closing.Sound (c : Closing) : Prop where
  rising : Rising SessionEdge.tsUs c.published
  closed : c.closedUs = max c.openedUs c.takenUs
  epoch : ∃ e ∈ c.published.drop c.applied, e.tsUs = c.epochUs

/-- The instant the consumer reads off the atomics is the one the edges since its last epoch say. -/
theorem Daemon.Consistent.closedAtUs_eq {d : Daemon η} (inv : d.Consistent) (epochUs : Int) :
    Consumer.closedAtUs d.shared.sessionEndUs epochUs =
      ((firstSessionEnd (d.published.drop d.applied)).map SessionEdge.tsUs).getD epochUs := by
  unfold Consumer.closedAtUs
  rw [inv.ended]
  cases found : firstSessionEnd (d.published.drop d.applied) with
  | none => rfl
  | some e =>
    have mem : e ∈ d.published := List.mem_of_mem_drop (List.mem_of_find?_eq_some found)
    exact if_pos (inv.positive e mem)

theorem mem_closingsAt {d : Daemon η} {gate : ResumeGate} {c : Closing}
    (mem : c ∈ d.closingsAt gate) : ∃ i t opened, d.consumer.engine.triggers[i]? = some t ∧
      t.openIncident = some opened ∧
      c = ⟨opened.1, opened.2,
        max (Consumer.closedAtUs d.shared.sessionEndUs gate.appliedResumeUs) opened.2,
        d.published, d.applied, d.openedBy i, gate.appliedResumeUs⟩ := by
  obtain ⟨⟨t, i⟩, place, mem⟩ := List.mem_flatMap.mp mem
  obtain ⟨call, called, made⟩ := List.mem_filterMap.mp mem
  have trigger : d.consumer.engine.triggers[i]? = some t := List.mem_zipIdx_iff_getElem?.mp place
  cases opened : t.openIncident with
  | none =>
    rw [Trigger.closeOpen, opened] at called
    cases called
  | some incident =>
    rw [Trigger.closeOpen, opened] at called
    obtain rfl := List.mem_singleton.mp called
    simp only [opened, Option.map_some, Option.some.injEq] at made
    exact ⟨i, t, incident, trigger, opened, made.symm⟩

/-- A closing is what every handler of its trigger hears from `close_all`. -/
theorem closing_heard {d : Daemon η} {gate : ResumeGate} {c : Closing}
    (mem : c ∈ d.closingsAt gate) : ∃ i t, d.consumer.engine.triggers[i]? = some t ∧
      t.openIncident = some (c.incidentId, c.openedUs) ∧
      ∀ slot < t.handlers.length,
        TriggerEngine.heard i slot (d.consumer.engine.closeAll
          (Consumer.closedAtUs d.shared.sessionEndUs gate.appliedResumeUs)).2 =
            [.onClear c.incidentId c.closedUs] := by
  obtain ⟨i, t, incident, trigger, opened, rfl⟩ := mem_closingsAt mem
  refine ⟨i, t, trigger, opened, ?_⟩
  intro slot handler
  rw [TriggerEngine.heard_closeAll _ _ trigger handler, Trigger.closeOpen, opened]

theorem closingsAt_sound {d : Daemon η} {gate : ResumeGate} (inv : d.Consistent)
    (fresh : d.shared.resumeAtUs ≠ d.consumer.gate.appliedResumeUs)
    (read : gate.appliedResumeUs = d.shared.resumeAtUs) {c : Closing}
    (mem : c ∈ d.closingsAt gate) : c.Sound := by
  obtain ⟨i, t, incident, _, _, rfl⟩ := mem_closingsAt mem
  have behind : ∃ e ∈ d.published.drop d.applied, e.tsUs = gate.appliedResumeUs := by
    rw [read]
    exact inv.epoch.resolve_left fresh
  refine ⟨inv.rising, ?_, behind⟩
  rw [inv.closedAtUs_eq]
  exact Int.max_comm _ _

theorem consume_sound {d : Daemon η} (sample : Sample) (stamped : Nat)
    (rest : List (Sample × Nat)) (now : Nat) (inv : d.Consistent)
    (sound : ∀ c ∈ d.closings, c.Sound) :
    ∀ c ∈ (d.consume sample stamped rest now).closings, c.Sound := by
  intro c mem
  rcases List.mem_append.mp mem with old | new
  · exact sound c old
  · cases accepted : (d.consumer.take d.shared sample now).accepted with
    | true =>
      rw [accepted, if_pos rfl] at new
      have fresh := (d.consumer.take_accepted d.shared sample now).mp accepted
      exact closingsAt_sound inv fresh (Consumer.take_edged_applied accepted) new
    | false =>
      rw [accepted, if_neg Bool.false_ne_true] at new
      cases new

theorem closings_of_publish {d d' : Daemon η} {shared : Shared} {edge : SessionEdge}
    (published : d.publish shared edge = some d') : d'.closings = d.closings := by
  unfold Daemon.publish at published
  split at published
  next =>
    cases published
    rfl
  next => cases published

/-- Only a consumer's turn closes anything. -/
theorem closings_sound_step {d d' : Daemon η} {label : DaemonStep}
    (stepped : d.step label = some d') (inv : d.Consistent) (sound : ∀ c ∈ d.closings, c.Sound) :
    ∀ c ∈ d'.closings, c.Sound := by
  cases label with
  | setObserving b peerUid tsUs =>
    simp only [Daemon.step] at stepped
    split at stepped
    next => rwa [closings_of_publish stepped]
    next =>
      cases stepped
      exact sound
  | switchProbing target peerUid reason policy tsUs =>
    simp only [Daemon.step] at stepped
    split at stepped
    next => rwa [closings_of_publish stepped]
    next =>
      cases stepped
      exact sound
  | queue sample stamped =>
    simp only [Daemon.step] at stepped
    split at stepped
    next =>
      cases stepped
      exact sound
    next => cases stepped
  | consume now =>
    simp only [Daemon.step] at stepped
    cases queued : d.channel with
    | nil =>
      simp only [queued, Option.some.injEq] at stepped
      exact stepped ▸ sound
    | cons head rest =>
      simp only [queued, Option.some.injEq] at stepped
      exact stepped ▸ consume_sound head.1 head.2 rest now inv sound

/-- Every closing of a run is made from atomics that agree with the edges published by then. -/
theorem closings_sound {tier : ProbingTier} {rules : List (Condition × List η × Int)}
    {labels : List DaemonStep} {d : Daemon η}
    (ran : Runs.runSteps Daemon.step (Daemon.start tier rules) labels = some d) :
    ∀ c ∈ d.closings, c.Sound := by
  have both := Runs.runSteps_invariant
    (P := fun d : Daemon η => d.Consistent ∧ ∀ c ∈ d.closings, c.Sound)
    (fun _ _ _ stepped inv =>
      ⟨consistent_step stepped inv.1, closings_sound_step stepped inv.1 inv.2⟩)
    ran ⟨consistent_start tier rules, fun _ mem => by cases mem⟩
  exact both.2

/-- A closing at the instant of a session end, up to the clamp, is at no other edge's instant. -/
theorem Closing.right_iff {c : Closing} (rising : Rising SessionEdge.tsUs c.published)
    {f : SessionEdge} : c.Right f ↔
      firstSessionEnd (c.published.drop c.stamped) = some f ∧
        c.closedUs = max c.openedUs f.tsUs := by
  constructor
  · rintro ⟨first, closed, _⟩
    exact ⟨first, closed⟩
  · rintro ⟨first, closed⟩
    refine ⟨first, closed, ?_⟩
    intro e mem other same
    have memF : f ∈ c.published := List.mem_of_mem_drop (List.mem_of_find?_eq_some first)
    have apart : e.tsUs ≠ f.tsUs := fun eq => other (rising.eq_of_stamp_eq mem memF eq)
    omega

theorem Closing.Sound.right_iff_endsWithSession {c : Closing} (sound : c.Sound) :
    (∃ f, c.Right f) ↔ c.EndsWithSession := by
  have closed := sound.closed
  constructor
  · rintro ⟨f, right⟩
    obtain ⟨first, atEnd⟩ := (Closing.right_iff sound.rising).mp right
    refine ⟨f, first, ?_⟩
    have memF : f ∈ c.published := List.mem_of_mem_drop (List.mem_of_find?_eq_some first)
    cases found : firstSessionEnd (c.published.drop c.applied) with
    | some n =>
      have taken : c.takenUs = n.tsUs := by simp [Closing.takenUs, found]
      have memN : n ∈ c.published := List.mem_of_mem_drop (List.mem_of_find?_eq_some found)
      by_cases same : n.tsUs = f.tsUs
      · exact .inl (congrArg some (sound.rising.eq_of_stamp_eq memN memF same))
      · exact .inr ⟨by omega, by omega⟩
    | none =>
      -- No end is left behind the last epoch, so the one the incident ended at stands before it.
      have taken : c.takenUs = c.epochUs := by simp [Closing.takenUs, found]
      have ends : f.endsSession = true := List.find?_some first
      obtain ⟨e, behind, epoch⟩ := sound.epoch
      have earlier : f.tsUs < e.tsUs :=
        sound.rising.take_lt_drop (mem_take_of_find_drop_none memF ends found) behind
      exact .inr ⟨by omega, by omega⟩
  · rintro ⟨f, first, ended⟩
    refine ⟨f, (Closing.right_iff sound.rising).mpr ⟨first, ?_⟩⟩
    rcases ended with found | ⟨takenEarly, endEarly⟩
    · have taken : c.takenUs = f.tsUs := by simp [Closing.takenUs, found]
      omega
    · omega

/-- Over every interleaving, the incidents an edge closes are closed at the end of the session
that opened them exactly when that end is the first one since the consumer's last epoch, or
the clamp hides the difference. -/
theorem incidents_close_at_session_end_iff {tier : ProbingTier}
    {rules : List (Condition × List η × Int)} {labels : List DaemonStep} {d : Daemon η}
    (ran : Runs.runSteps Daemon.step (Daemon.start tier rules) labels = some d) :
    ∀ c ∈ d.closings, (∃ f, c.Right f) ↔ c.EndsWithSession :=
  fun c mem => (closings_sound ran c mem).right_iff_endsWithSession

/-- A sample taken after a resume still waits in the channel when the next pause comes, so that
the pause finds the end of the session before it unconsumed and records nothing. -/
def pauseBeforeFirstTurn : List DaemonStep :=
  [.setObserving false 0 10, .setObserving true 0 20,
    .queue (.link (.gatewayOnly 25 .fail)) 2, .setObserving false 0 30, .consume 0,
    .setObserving true 0 40, .queue (.link (.gatewayOnly 45 .fail)) 4, .consume 1]

/-- The closing of that incident: it ended at the pause at 30. -/
def closedAtResume : Closing where
  incidentId := "gw-drop-25"
  openedUs := 25
  closedUs := 40
  published := [⟨.pause, 10⟩, ⟨.resume, 20⟩, ⟨.pause, 30⟩, ⟨.resume, 40⟩]
  applied := 3
  stamped := 2
  epochUs := 40

theorem incident_closed_at_later_resume :
    (Runs.runSteps Daemon.step (Daemon.start .active [(gwDrop, [()], 0)])
        pauseBeforeFirstTurn).map Daemon.closings = some [closedAtResume] ∧
      firstSessionEnd (closedAtResume.published.drop closedAtResume.stamped) =
        some ⟨.pause, 30⟩ ∧
      ¬ ∃ f, closedAtResume.Right f := by
  refine ⟨rfl, rfl, ?_⟩
  rintro ⟨f, right⟩
  have first : some ⟨.pause, 30⟩ = some f := right.first
  obtain rfl := Option.some.inj first
  have closed : (40 : Int) = max 25 30 := right.closed
  omega

theorem incidents_close_at_session_end_pauseBeforeFirstTurn :
    (∃ f, closedAtResume.Right f) ↔ closedAtResume.EndsWithSession :=
  @incidents_close_at_session_end_iff Unit .active [(gwDrop, [()], 0)] pauseBeforeFirstTurn _ rfl
    closedAtResume (List.mem_singleton_self _)

end NetObserver
