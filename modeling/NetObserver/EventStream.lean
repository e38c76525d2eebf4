import NetObserver.EdgeRecord

/-! One held-open subscription beside the threads that publish on the bus it reads. -/

namespace NetObserver

open Timeline

/-- How far a subscription got: refused at the cap, its receiver there, the observing flag read
for the ack, or the ack written and frames following it. -/
inductive SubscriberPhase where
  | refused
  | subscribed
  | observed (observing : Bool)
  | streaming

/-- The receiver's cursor is a position on the bus; `start` is where it stood at first. -/
structure Subscription where
  kinds : Option (List EventKind)
  start : Nat
  cursor : Nat
  phase : SubscriberPhase
  gone : Bool
  written : List StreamFrame

/-- What the task of a subscription does next. The bus gives it the frame at its cursor, or
tells it how many it overwrote there; `hangUp` is the peer's end or a failed write. -/
inductive SubscriberStep where
  | readObserving
  | ready (nowUs : Int)
  | receive
  | lagged (skipped : Nat) (nowUs : Int)
  | hangUp

inductive StreamStep where
  | plane (label : PlaneStep)
  | subscribe (kinds : Option (List EventKind)) (taken maxSubscribers : Nat) (nowUs : Int)
  | subscriber (label : SubscriberStep)

structure StreamWorld where
  plane : ControlPlane
  subscription : Option Subscription

namespace Subscription

/-- A slot is claimed, then the receiver is made, before anything is written. -/
def subscribe (d : ControlPlane) (kinds : Option (List EventKind)) (taken maxSubscribers : Nat)
    (nowUs : Int) : Subscription :=
  if taken < maxSubscribers then
    ⟨kinds, d.bus.length, d.bus.length, .subscribed, false, []⟩
  else
    ⟨kinds, d.bus.length, d.bus.length, .refused, true,
      [.error ⟨nowUs, .tooManySubscribers,
        "subscriber limit reached (" ++ maxSubscribers.repr ++ " concurrent)"⟩]⟩

def receive (d : ControlPlane) (s : Subscription) : Option Subscription :=
  d.bus[s.cursor]?.map fun frame =>
    { s with
      cursor := s.cursor + 1
      written := if frame.passes s.kinds then s.written ++ [frame.bytes] else s.written }

def lagged (d : ControlPlane) (s : Subscription) (skipped : Nat) (nowUs : Int) :
    Option Subscription :=
  if s.cursor + skipped ≤ d.bus.length then
    some { s with
      cursor := s.cursor + skipped
      written := s.written ++ [.gap ⟨nowUs, skipped⟩] }
  else none

def step (d : ControlPlane) (s : Subscription) (label : SubscriberStep) : Option Subscription :=
  if s.gone then none
  else
    match s.phase, label with
    | _, .hangUp => some { s with gone := true }
    | .subscribed, .readObserving => some { s with phase := .observed d.shared.observing }
    | .observed observing, .ready nowUs =>
      some { s with
        phase := .streaming
        written := [.ready ⟨nowUs, s.kinds, observing, d.shared.probing⟩] }
    | .streaming, .receive => s.receive d
    | .streaming, .lagged skipped nowUs => s.lagged d skipped nowUs
    | _, _ => none

end Subscription

namespace StreamWorld

def start (tier : ProbingTier) (bootedUs : Int) : StreamWorld := ⟨.start tier bootedUs, none⟩

def step (localInstant : Int → String) (w : StreamWorld) : StreamStep → Option StreamWorld
  | .plane label => (w.plane.step localInstant label).map fun plane => { w with plane := plane }
  | .subscribe kinds taken maxSubscribers nowUs =>
    match w.subscription with
    | none => some { w with
        subscription := some (.subscribe w.plane kinds taken maxSubscribers nowUs) }
    | some _ => none
  | .subscriber label => do
    let s ← w.subscription
    let s' ← s.step w.plane label
    some { w with subscription := some s' }

end StreamWorld

/-- What became of the published frames, as the receiver met them: one was handed to it, or a
run of them was overwritten and reported in their place. -/
inductive Segment where
  | received (frame : EncodedFrame)
  | lost (frames : List EncodedFrame) (nowUs : Int)

namespace Segment

def frames : Segment → List EncodedFrame
  | received frame => [frame]
  | lost frames _ => frames

def written (kinds : Option (List EventKind)) : Segment → Option StreamFrame
  | received frame => if frame.passes kinds then some frame.bytes else none
  | lost frames nowUs => some (.gap ⟨nowUs, frames.length⟩)

def isReceived : Segment → Bool
  | received _ => true
  | lost .. => false

end Segment

def StreamFrame.skipped : StreamFrame → Nat
  | .gap g => g.skipped
  | _ => 0

/-- The state a client has after a frame, once the ack gave it one. -/
def foldFrame (view : Option (Bool × ProbingTier)) : StreamFrame → Option (Bool × ProbingTier)
  | .ready r => some (r.observing, r.probing)
  | .observing e => view.map fun v => (e.observing, v.2)
  | .probing e => view.map fun v => (v.1, e.tier)
  | .event _ | .gap _ | .error _ => view

def BoundaryEdge.flag? (e : BoundaryEdge) : Option Bool := e.observing?.map ObservingEdge.observing

def BoundaryEdge.tier? (e : BoundaryEdge) : Option ProbingTier := e.probing?.map ProbingEdge.tier

def edgesOf (bus : List EncodedFrame) : List BoundaryEdge := bus.filterMap fun f => f.bytes.edge?

/-- What a daemon publishes: events and boundary edges, each encoded as it is. -/
def Published (f : EncodedFrame) : Prop :=
  ∃ frame, f = .encode frame ∧ ((∃ e, frame = .event e) ∨ ∃ e, frame = BoundaryEdge.frame e)

/-- A value read of the state as some of the edges left it, all those before the cursor's start
among them. -/
def Seen {α : Type*} (d : ControlPlane) (start : Nat) (after : List BoundaryEdge → α) (value : α) :
    Prop :=
  ∃ seen, edgesOf (d.bus.take start) <+: seen ∧ seen <+: d.edges ∧ value = after seen

/-- The frames written so far follow what was published, segment by segment. -/
structure Follows (found : ProbingTier) (d : ControlPlane) (s : Subscription) (ready : Ready)
    (segments : List Segment) : Prop where
  written : s.written = .ready ready :: segments.filterMap (Segment.written s.kinds)
  frames : segments.flatMap Segment.frames = (d.bus.take s.cursor).drop s.start
  kinds : ready.kinds = s.kinds
  observing : Seen d s.start (latest BoundaryEdge.flag? true) ready.observing
  probing : Seen d s.start (latest BoundaryEdge.tier? found) ready.probing

/-- Where a subscription stands, by its phase. -/
def Keeps (found : ProbingTier) (d : ControlPlane) (s : Subscription) : Prop :=
  match s.phase with
  | .refused => ∃ e, s.written = [.error e]
  | .subscribed => s.written = [] ∧ s.cursor = s.start
  | .observed observing => s.written = [] ∧ s.cursor = s.start ∧
      Seen d s.start (latest BoundaryEdge.flag? true) observing
  | .streaming => ∃ ready segments, Follows found d s ready segments

structure StreamKept (found : ProbingTier) (w : StreamWorld) : Prop where
  record : EdgeRecord found w.plane
  published : ∀ f ∈ w.plane.bus, Published f
  bounds : ∀ s, w.subscription = some s → s.start ≤ s.cursor ∧ s.cursor ≤ w.plane.bus.length
  keeps : ∀ s, w.subscription = some s → Keeps found w.plane s

theorem flagAfter_eq_latest (found : Bool) (es : List BoundaryEdge) :
    flagAfter found (observingEdges es) = latest BoundaryEdge.flag? found es := by
  rw [flagAfter, latest, observingEdges]
  have reads : es.filterMap BoundaryEdge.flag? =
      (es.filterMap BoundaryEdge.observing?).map ObservingEdge.observing := by
    rw [List.map_filterMap]
    rfl
  rw [reads, List.getLast?_map]

theorem lastTier_eq_latest (found : ProbingTier) (es : List BoundaryEdge) :
    lastTier found (probingEdges es) = latest BoundaryEdge.tier? found es := by
  rw [lastTier, latest, probingEdges]
  have reads : es.filterMap BoundaryEdge.tier? =
      (es.filterMap BoundaryEdge.probing?).map ProbingEdge.tier := by
    rw [List.map_filterMap]
    rfl
  rw [reads, List.getLast?_map]

/-- The bus and the edges only grow. -/
theorem ControlPlane.step_grows {localInstant : Int → String} {found : ProbingTier}
    {d d' : ControlPlane} {label : PlaneStep} (record : EdgeRecord found d)
    (stepped : d.step localInstant label = some d') :
    d.bus <+: d'.bus ∧ d.edges <+: d'.edges ∧
      ((∀ f ∈ d.bus, Published f) → ∀ f ∈ d'.bus, Published f) := by
  rcases step_cases stepped with ⟨cmd, peerUid, rfl⟩ | ⟨event, rfl⟩ | ⟨k, t, _, _, _, thread, moved⟩
  · exact ⟨List.prefix_rfl, List.prefix_rfl, id⟩
  · refine ⟨List.prefix_append _ _, ?_, ?_⟩
    · exact (d.edges_publish event) ▸ List.prefix_rfl
    · intro published f mem
      rcases List.mem_append.mp mem with old | new
      · exact published f old
      · exact ⟨.event event, List.mem_singleton.mp new, .inl ⟨event, rfl⟩⟩
  · have grown : d.edges <+: d'.edges := by
      rcases moves_frame record.toEdgesTracked thread moved with ⟨_, same, _⟩ | ⟨_, _, _, _, _, more, _⟩
      · exact same ▸ List.prefix_rfl
      · rw [more]
        exact List.prefix_append _ _
    cases moved with
    | @send tr flipped =>
      refine ⟨List.prefix_append _ _, grown, ?_⟩
      intro published f mem
      rcases List.mem_append.mp mem with old | new
      · exact published f old
      · exact ⟨tr.edge.frame, List.mem_singleton.mp new, .inr ⟨tr.edge, rfl⟩⟩
    | refuse | hold | unstamped | flip | handOver | openWindow | fileWindow =>
      exact ⟨List.prefix_rfl, grown, id⟩

theorem Seen.grow {α : Type*} {d d' : ControlPlane} {start : Nat} {after : List BoundaryEdge → α}
    {value : α} (seen : Seen d start after value) (bound : start ≤ d.bus.length)
    (bus : d.bus <+: d'.bus) (edges : d.edges <+: d'.edges) : Seen d' start after value := by
  obtain ⟨es, known, within, eq⟩ := seen
  obtain ⟨more, grown⟩ := bus
  refine ⟨es, ?_, within.trans edges, eq⟩
  rw [← grown, List.take_append_of_le_length bound]
  exact known

/-- What is read now takes in every edge sent so far. -/
theorem seen_now {α : Type*} (d : ControlPlane) (start : Nat) (after : List BoundaryEdge → α) :
    Seen d start after (after d.edges) := by
  refine ⟨d.edges, ?_, List.prefix_rfl, rfl⟩
  have sent : edgesOf (d.bus.take start) <+: d.sentEdges := (List.take_prefix start d.bus).filterMap _
  exact sent.trans (List.prefix_append _ _)

theorem Keeps.grow {found : ProbingTier} {d d' : ControlPlane} {s : Subscription}
    (keeps : Keeps found d s) (bounds : s.start ≤ s.cursor ∧ s.cursor ≤ d.bus.length)
    (bus : d.bus <+: d'.bus) (edges : d.edges <+: d'.edges) : Keeps found d' s := by
  have start : s.start ≤ d.bus.length := Nat.le_trans bounds.1 bounds.2
  rcases s with ⟨kinds, start, cursor, _ | _ | _ | _, gone, written⟩
  · exact keeps
  · exact keeps
  · obtain ⟨unwritten, fresh, seen⟩ := keeps
    exact ⟨unwritten, fresh, seen.grow start bus edges⟩
  · obtain ⟨ready, segments, follows⟩ := keeps
    obtain ⟨more, grown⟩ := bus
    have same : d'.bus.take cursor = d.bus.take cursor := by
      rw [← grown, List.take_append_of_le_length bounds.2]
    refine ⟨ready, segments, follows.written, ?_, follows.kinds,
      follows.observing.grow start ⟨more, grown⟩ edges,
      follows.probing.grow start ⟨more, grown⟩ edges⟩
    rw [same]
    exact follows.frames

theorem Keeps.receive {found : ProbingTier} {d : ControlPlane} {s s' : Subscription}
    (streaming : s.phase = .streaming) (start : s.start ≤ s.cursor)
    (received : s.receive d = some s') (keeps : Keeps found d s) :
    s'.start = s.start ∧ s'.cursor = s.cursor + 1 ∧ s'.cursor ≤ d.bus.length ∧
      Keeps found d s' := by
  obtain ⟨frame, at_, rfl⟩ := Option.map_eq_some_iff.mp received
  have inside : s.cursor < d.bus.length := (List.getElem?_eq_some_iff.mp at_).1
  have short : s.start ≤ (d.bus.take s.cursor).length := by
    rw [List.length_take]
    omega
  refine ⟨rfl, rfl, inside, ?_⟩
  simp only [Keeps, streaming] at keeps ⊢
  obtain ⟨ready, segments, follows⟩ := keeps
  refine ⟨ready, segments ++ [.received frame], ?_, ?_, follows.kinds, follows.observing,
    follows.probing⟩
  · have output : [Segment.received frame].filterMap (Segment.written s.kinds) =
        if frame.passes s.kinds then [frame.bytes] else [] := by
      cases passes : frame.passes s.kinds <;> simp [Segment.written, passes]
    rw [List.filterMap_append, output, ← List.cons_append, ← follows.written]
    cases frame.passes s.kinds with
    | true => rfl
    | false => exact (List.append_nil _).symm
  · have more : d.bus.take (s.cursor + 1) = d.bus.take s.cursor ++ [frame] := by
      rw [List.take_add_one, at_]
      rfl
    rw [List.flatMap_append, follows.frames, more, List.drop_append_of_le_length short]
    rfl

theorem Keeps.lagged {found : ProbingTier} {d : ControlPlane} {s s' : Subscription} {skipped : Nat}
    {nowUs : Int} (streaming : s.phase = .streaming) (start : s.start ≤ s.cursor)
    (lagged : s.lagged d skipped nowUs = some s') (keeps : Keeps found d s) :
    s'.start = s.start ∧ s'.cursor = s.cursor + skipped ∧ s'.cursor ≤ d.bus.length ∧
      Keeps found d s' := by
  unfold Subscription.lagged at lagged
  split at lagged
  next inside =>
    cases lagged
    refine ⟨rfl, rfl, inside, ?_⟩
    simp only [Keeps, streaming] at keeps ⊢
    obtain ⟨ready, segments, follows⟩ := keeps
    have short : s.start ≤ (d.bus.take s.cursor).length := by
      rw [List.length_take]
      omega
    have overwritten : ((d.bus.drop s.cursor).take skipped).length = skipped := by
      rw [List.length_take, List.length_drop]
      omega
    refine ⟨ready, segments ++ [.lost ((d.bus.drop s.cursor).take skipped) nowUs], ?_, ?_,
      follows.kinds, follows.observing, follows.probing⟩
    · rw [List.filterMap_append, ← List.cons_append, ← follows.written]
      simp [Segment.written, overwritten]
    · rw [List.flatMap_append, follows.frames, List.take_add, List.drop_append_of_le_length short]
      simp [Segment.frames]
  next => cases lagged

theorem Keeps.hangUp {found : ProbingTier} {d : ControlPlane} {s : Subscription}
    (keeps : Keeps found d s) : Keeps found d { s with gone := true } := by
  rcases s with ⟨kinds, start, cursor, _ | _ | _ | _, gone, written⟩
  · exact keeps
  · exact keeps
  · exact keeps
  · obtain ⟨ready, segments, follows⟩ := keeps
    exact ⟨ready, segments, follows.written, follows.frames, follows.kinds, follows.observing,
      follows.probing⟩

theorem Keeps.step {found : ProbingTier} {d : ControlPlane} {s s' : Subscription}
    {label : SubscriberStep} (record : EdgeRecord found d)
    (bounds : s.start ≤ s.cursor ∧ s.cursor ≤ d.bus.length)
    (stepped : s.step d label = some s') (keeps : Keeps found d s) :
    (s'.start ≤ s'.cursor ∧ s'.cursor ≤ d.bus.length) ∧ Keeps found d s' := by
  unfold Subscription.step at stepped
  split at stepped
  next => cases stepped
  next =>
    split at stepped
    next =>
      cases stepped
      exact ⟨bounds, keeps.hangUp⟩
    next subscribed =>
      cases stepped
      simp only [Keeps, subscribed] at keeps ⊢
      refine ⟨bounds, keeps.1, keeps.2, ?_⟩
      have now := seen_now d s.start (latest BoundaryEdge.flag? true)
      rwa [← flagAfter_eq_latest, ← record.moves.flag] at now
    next observing nowUs observed =>
      cases stepped
      simp only [Keeps, observed] at keeps ⊢
      obtain ⟨_, fresh, seen⟩ := keeps
      refine ⟨bounds, _, [], rfl, ?_, rfl, seen, ?_⟩
      · rw [fresh, List.flatMap_nil]
        exact (List.drop_eq_nil_of_le (List.length_take_le _ _)).symm
      · have now := seen_now d s.start (latest BoundaryEdge.tier? found)
        rwa [← lastTier_eq_latest, ← record.moves.tier] at now
    next streaming =>
      obtain ⟨start, cursor, inside, after⟩ := Keeps.receive streaming bounds.1 stepped keeps
      exact ⟨⟨by omega, inside⟩, after⟩
    next skipped nowUs streaming =>
      obtain ⟨start, cursor, inside, after⟩ := Keeps.lagged streaming bounds.1 stepped keeps
      exact ⟨⟨by omega, inside⟩, after⟩
    next => cases stepped

theorem streamKept_start (tier : ProbingTier) (bootedUs : Int) :
    StreamKept tier (.start tier bootedUs) where
  record := edgeRecord_start tier bootedUs
  published := fun f mem => by cases mem
  bounds := fun s found => by cases found
  keeps := fun s found => by cases found

theorem streamKept_step {localInstant : Int → String} {tier : ProbingTier} {w w' : StreamWorld}
    {label : StreamStep} (stepped : w.step localInstant label = some w')
    (inv : StreamKept tier w) : StreamKept tier w' := by
  cases label with
  | plane label =>
    obtain ⟨d', moved, rfl⟩ := Option.map_eq_some_iff.mp stepped
    obtain ⟨bus, edges, published⟩ := ControlPlane.step_grows inv.record moved
    refine ⟨edgeRecord_step moved inv.record, published inv.published, ?_, ?_⟩
    · intro s held
      obtain ⟨start, cursor⟩ := inv.bounds s held
      exact ⟨start, Nat.le_trans cursor bus.length_le⟩
    · intro s held
      exact (inv.keeps s held).grow (inv.bounds s held) bus edges
  | subscribe kinds taken maxSubscribers nowUs =>
    simp only [StreamWorld.step] at stepped
    split at stepped
    next =>
      cases stepped
      refine ⟨inv.record, inv.published, ?_, ?_⟩
      · rintro s ⟨⟩
        unfold Subscription.subscribe
        split <;> exact ⟨Nat.le_refl _, Nat.le_refl _⟩
      · rintro s ⟨⟩
        unfold Subscription.subscribe
        split
        · exact ⟨rfl, rfl⟩
        · exact ⟨_, rfl⟩
    next => cases stepped
  | subscriber label =>
    obtain ⟨s, held, rest⟩ := Option.bind_eq_some_iff.mp stepped
    obtain ⟨s', moved, same⟩ := Option.bind_eq_some_iff.mp rest
    cases same
    obtain ⟨bounds, keeps⟩ := (inv.keeps s held).step inv.record (inv.bounds s held) moved
    refine ⟨inv.record, inv.published, ?_, ?_⟩
    · rintro u ⟨⟩
      exact bounds
    · rintro u ⟨⟩
      exact keeps

theorem streamKept_run {localInstant : Int → String} {tier : ProbingTier} {bootedUs : Int}
    {labels : List StreamStep} {w : StreamWorld}
    (ran : Runs.runSteps (StreamWorld.step localInstant) (.start tier bootedUs) labels = some w) :
    StreamKept tier w :=
  Runs.runSteps_invariant (fun _ _ _ => streamKept_step) ran (streamKept_start tier bootedUs)

theorem latest_cons {α γ : Type*} (read : α → Option γ) (found : γ) (x : α) (xs : List α) :
    latest read found (x :: xs) = latest read ((read x).getD found) xs := by
  have split := latest_append read found [x] xs
  have first : latest read found [x] = (read x).getD found := by
    cases known : read x <;> simp [latest, known]
  rw [first] at split
  exact split

/-- Frames after the ack move the client's state as the edges among them say. -/
theorem foldl_foldFrame {frames : List StreamFrame} (acked : ∀ r, .ready r ∉ frames)
    (observing : Bool) (probing : ProbingTier) :
    frames.foldl foldFrame (some (observing, probing)) =
      some (latest BoundaryEdge.flag? observing (frames.filterMap StreamFrame.edge?),
        latest BoundaryEdge.tier? probing (frames.filterMap StreamFrame.edge?)) := by
  induction frames generalizing observing probing with
  | nil => rfl
  | cons frame frames ih =>
    have rest := ih fun r mem => acked r (List.mem_cons_of_mem _ mem)
    cases frame with
    | ready r => exact absurd (List.mem_cons_self ..) (acked r)
    | event e | gap g | error e => exact rest observing probing
    | observing e =>
      have here := rest e.observing probing
      rw [List.foldl_cons, List.filterMap_cons]
      simp only [StreamFrame.edge?, latest_cons]
      exact here
    | probing e =>
      have here := rest observing e.tier
      rw [List.foldl_cons, List.filterMap_cons]
      simp only [StreamFrame.edge?, latest_cons]
      exact here

section

variable {kinds : Option (List EventKind)} {segments : List Segment}

/-- A frame passes unless it is an event of a kind not asked for. -/
theorem Published.passes_iff {f : EncodedFrame} (published : Published f) :
    f.passes kinds = true ↔ ∀ e ks, f.bytes = .event e → kinds = some ks → e.kind ∈ ks := by
  obtain ⟨frame, rfl, shape⟩ := published
  constructor
  · intro passes e ks event asked
    have bytes : frame = .event e := event
    subst bytes asked
    simpa [EncodedFrame.passes, EncodedFrame.encode, StreamFrame.eventKind] using passes
  · intro asked
    cases passes : (EncodedFrame.encode frame).passes kinds with
    | true => rfl
    | false =>
      obtain ⟨e, ks, rfl, rfl, absent⟩ := EncodedFrame.event_of_not_passes passes
      exact absurd (asked e ks rfl rfl) absent

theorem Published.skipped {f : EncodedFrame} (published : Published f) : f.bytes.skipped = 0 := by
  obtain ⟨frame, rfl, ⟨e, rfl⟩ | ⟨e, rfl⟩⟩ := published
  · rfl
  · cases e <;> rfl

theorem Published.not_ready {f : EncodedFrame} (published : Published f) (r : Ready) :
    f.bytes ≠ .ready r := by
  obtain ⟨frame, rfl, ⟨e, rfl⟩ | ⟨e, rfl⟩⟩ := published
  · intro eq
    cases eq
  · intro eq
    cases e <;> cases eq

theorem skipped_and_received (kinds : Option (List EventKind))
    (published : ∀ f ∈ segments.flatMap Segment.frames, Published f) :
    ((segments.filterMap (Segment.written kinds)).map StreamFrame.skipped).sum +
      (segments.filter Segment.isReceived).length = (segments.flatMap Segment.frames).length := by
  induction segments with
  | nil => rfl
  | cons segment segments ih =>
    have rest := ih fun f mem => published f (List.mem_append_right _ mem)
    rw [List.flatMap_cons, List.length_append]
    cases segment with
    | received frame =>
      have unskipped := (published frame (List.mem_append_left _ (List.mem_singleton_self _))).skipped
      cases passes : frame.passes kinds with
      | true =>
        simp only [List.filterMap_cons, Segment.written, passes, if_true, List.map_cons,
          List.sum_cons, unskipped, List.filter_cons, Segment.isReceived, Segment.frames,
          List.length_cons, List.length_nil]
        omega
      | false =>
        simp only [List.filterMap_cons, Segment.written, passes, Bool.false_eq_true, if_false,
          List.filter_cons, Segment.isReceived, if_true, Segment.frames, List.length_cons,
          List.length_nil]
        omega
    | lost frames nowUs =>
      simp only [List.filterMap_cons, Segment.written, List.map_cons, List.sum_cons,
        StreamFrame.skipped, List.filter_cons, Segment.isReceived, Bool.false_eq_true, if_false,
        Segment.frames]
      omega

theorem written_not_ready (published : ∀ f ∈ segments.flatMap Segment.frames, Published f)
    (r : Ready) : .ready r ∉ segments.filterMap (Segment.written kinds) := by
  intro mem
  obtain ⟨segment, held, shown⟩ := List.mem_filterMap.mp mem
  cases segment with
  | received frame =>
    have known := published frame (List.mem_flatMap.mpr ⟨_, held, List.mem_singleton_self _⟩)
    simp only [Segment.written] at shown
    split at shown
    next => exact known.not_ready r (Option.some.inj shown)
    next => cases shown
  | lost frames nowUs => cases shown

/-- Where no run was lost every edge among the frames is written. -/
theorem written_edges (kinds : Option (List EventKind))
    (published : ∀ f ∈ segments.flatMap Segment.frames, Published f)
    (whole : ∀ g, .gap g ∉ segments.filterMap (Segment.written kinds)) :
    (segments.filterMap (Segment.written kinds)).filterMap StreamFrame.edge? =
      edgesOf (segments.flatMap Segment.frames) := by
  induction segments with
  | nil => rfl
  | cons segment segments ih =>
    cases segment with
    | received frame =>
      have known := published frame (List.mem_append_left _ (List.mem_singleton_self _))
      have rest := ih (fun f mem => published f (List.mem_append_right _ mem)) ?_
      · have split : edgesOf ((Segment.received frame :: segments).flatMap Segment.frames) =
            frame.bytes.edge?.toList ++ edgesOf (segments.flatMap Segment.frames) := by
          rw [List.flatMap_cons, edgesOf, List.filterMap_append]
          cases edge : frame.bytes.edge? <;> simp [Segment.frames, edge, edgesOf]
        rw [split, ← rest, List.filterMap_cons]
        cases passes : frame.passes kinds with
        | true =>
          simp only [Segment.written, passes, if_true, List.filterMap_cons]
          cases frame.bytes.edge? <;> rfl
        | false =>
          obtain ⟨bytes, rfl, _⟩ := known
          obtain ⟨e, _, rfl, _, _⟩ := EncodedFrame.event_of_not_passes passes
          simp only [Segment.written, passes, Bool.false_eq_true, if_false]
          rfl
      · intro g mem
        refine whole g ?_
        obtain ⟨later, held, shown⟩ := List.mem_filterMap.mp mem
        exact List.mem_filterMap.mpr ⟨later, List.mem_cons_of_mem _ held, shown⟩
    | lost frames nowUs =>
      exact absurd (List.mem_cons_self ..) (whole ⟨nowUs, frames.length⟩)

end

/-- What a subscriber that streams was written, against what was published since it subscribed. -/
structure StreamAccounts (d : ControlPlane) (s : Subscription) (ready : Ready)
    (segments : List Segment) : Prop where
  written : s.written = .ready ready :: segments.filterMap (Segment.written s.kinds)
  order : segments.flatMap Segment.frames = (d.bus.take s.cursor).drop s.start
  acked : ready.kinds = s.kinds
  passed : ∀ f, .received f ∈ segments → (f.passes s.kinds = true ↔
    ∀ e ks, f.bytes = .event e → s.kinds = some ks → e.kind ∈ ks)
  counted : (s.written.map StreamFrame.skipped).sum +
    (segments.filter Segment.isReceived).length = s.cursor - s.start
  folded : (∀ g, .gap g ∉ s.written) → s.cursor = d.bus.length → d.snapshotLock = none →
    s.written.foldl foldFrame none = some (d.shared.observing, d.shared.probing)

theorem StreamKept.accounts {found : ProbingTier} {w : StreamWorld} {s : Subscription}
    {ready : Ready} {segments : List Segment} (inv : StreamKept found w)
    (held : w.subscription = some s) (follows : Follows found w.plane s ready segments) :
    StreamAccounts w.plane s ready segments := by
  obtain ⟨start, cursor⟩ := inv.bounds s held
  have published : ∀ f ∈ segments.flatMap Segment.frames, Published f := by
    intro f mem
    rw [follows.frames] at mem
    exact inv.published f (List.mem_of_mem_take (List.mem_of_mem_drop mem))
  refine ⟨follows.written, follows.frames, follows.kinds, ?_, ?_, ?_⟩
  · intro f mem
    exact (published f (List.mem_flatMap.mpr ⟨_, mem, List.mem_singleton_self _⟩)).passes_iff
  · have counted := skipped_and_received s.kinds published
    rw [follows.frames, List.length_drop, List.length_take, Nat.min_eq_left cursor] at counted
    rw [follows.written, List.map_cons, List.sum_cons]
    change 0 + _ + _ = _
    omega
  · intro whole caughtUp free
    have edges := written_edges s.kinds published (by
      intro g mem
      exact whole g (by rw [follows.written]; exact List.mem_cons_of_mem _ mem))
    have stream : w.plane.edges = edgesOf (w.plane.bus.take s.start) ++
        edgesOf (w.plane.bus.drop s.start) := by
      rw [edgesOf, edgesOf, ← List.filterMap_append, List.take_append_drop, ControlPlane.edges, free]
      exact List.append_nil _
    rw [follows.frames, caughtUp, List.take_length] at edges
    rw [follows.written, List.foldl_cons]
    change List.foldl foldFrame (some (ready.observing, ready.probing)) _ = _
    rw [foldl_foldFrame (written_not_ready published), edges]
    obtain ⟨early, known, within, flag⟩ := follows.observing
    obtain ⟨early', known', within', tier⟩ := follows.probing
    rw [stream] at within within'
    rw [flag, tier, latest_overlap _ known within, latest_overlap _ known' within', ← stream,
      ← flagAfter_eq_latest, ← lastTier_eq_latest, ← inv.record.moves.flag,
      ← inv.record.moves.tier]

end NetObserver
