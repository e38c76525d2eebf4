import NetObserver.ControlThreads
import NetObserver.Timeline

/-! The boundary edges against the state they describe, over every interleaving of the threads. -/

namespace NetObserver

open Timeline

def observingEdges (es : List BoundaryEdge) : List ObservingEdge :=
  es.filterMap BoundaryEdge.observing?

def probingEdges (es : List BoundaryEdge) : List ProbingEdge := es.filterMap BoundaryEdge.probing?

def flagAfter (found : Bool) (es : List ObservingEdge) : Bool :=
  (es.getLast?.map ObservingEdge.observing).getD found

@[simp] theorem flagAfter_snoc (found : Bool) (es : List ObservingEdge) (e : ObservingEdge) :
    flagAfter found (es ++ [e]) = e.observing := by
  simp [flagAfter]

@[simp] theorem observingEdges_append (xs ys : List BoundaryEdge) :
    observingEdges (xs ++ ys) = observingEdges xs ++ observingEdges ys := List.filterMap_append

@[simp] theorem probingEdges_append (xs ys : List BoundaryEdge) :
    probingEdges (xs ++ ys) = probingEdges xs ++ probingEdges ys := List.filterMap_append

/-- The edges stamped against the state: read in the order of their instants they move the
flag and the tier as the state was moved. -/
structure EdgesMove (found : ProbingTier) (s : Shared) (es : List BoundaryEdge) : Prop where
  mirror : s.snapObserving = s.observing ∧ s.snapProbing = s.probing
  order : Rising BoundaryEdge.tsUs es
  flag : s.observing = flagAfter true (observingEdges es)
  alternate : EachAfter (fun earlier e => e.observing ≠ flagAfter true earlier) (observingEdges es)
  tier : s.probing = lastTier found (probingEdges es)
  moved : EachAfter (fun earlier e => e.reason = .control → e.tier ≠ lastTier found earlier)
    (probingEdges es)

/-- Each edge handed to the store was sent, and is handed over once. -/
structure EdgesHanded (d : ControlPlane) : Prop where
  handed : ∀ e ∈ d.handed, e ∈ d.sentEdges
  once : d.handed.Nodup

/-- Where the threads stand with their edges. -/
structure EdgesTracked (d : ControlPlane) : Prop extends EdgesHanded d where
  clock : ∀ e ∈ d.edges, e.tsUs ≤ d.clockUs
  flipped : ∀ (k : Nat) (t : ControlThread) (tr : Transition), d.threads[k]? = some t →
    t.phase = .flipped tr → d.snapshotLock = some (k, tr.edge)
  sent : ∀ (k : Nat) (t : ControlThread) (tr : Transition), d.threads[k]? = some t →
    t.phase = .sent tr → tr.edge ∈ d.sentEdges ∧ tr.edge ∉ d.handed
  apart : ∀ (j k : Nat) (t u : ControlThread) (tr tr' : Transition), d.threads[j]? = some t →
    t.phase = .sent tr → d.threads[k]? = some u → u.phase = .sent tr' → tr.edge = tr'.edge → j = k

theorem EdgesMove.stamp {found : ProbingTier} {s shared : Shared} {es : List BoundaryEdge}
    {task : ControlTask} {tsUs : Int} {mayRestore : Bool} {tr : Transition}
    (moves : EdgesMove found s es) (later : ∀ e ∈ es, e.tsUs < tsUs)
    (section_ : ControlPlane.lockedSection s task tsUs mayRestore = (shared, .ok (some tr))) :
    EdgesMove found shared (es ++ [tr.edge]) := by
  have rising (e : BoundaryEdge) (stamp : e.tsUs = tsUs) : Rising BoundaryEdge.tsUs (es ++ [e]) := by
    refine List.pairwise_append.mpr ⟨moves.order, List.pairwise_singleton _ _, ?_⟩
    intro x mem y single
    rw [List.mem_singleton.mp single, stamp]
    exact later x mem
  rcases ControlPlane.lockedSection_stamped section_ with
    ⟨b, u, _, changed, rfl, flag, snap, tier, snapTier⟩ | ⟨sw, rfl, switches⟩
  · have probing : probingEdges [Transition.edge (.observing ⟨tsUs, b, some u, .control⟩)] = [] := rfl
    have observing : observingEdges [Transition.edge (.observing ⟨tsUs, b, some u, .control⟩)] =
        [⟨tsUs, b, some u, .control⟩] := rfl
    refine ⟨⟨by rw [snap, flag], by rw [snapTier, tier, moves.mirror.2]⟩, rising _ rfl, ?_, ?_, ?_, ?_⟩
    · rw [observingEdges_append, observing, flagAfter_snoc, flag]
    · rw [observingEdges_append, observing]
      refine moves.alternate.snoc ?_
      rw [← moves.flag]
      exact Ne.symm changed
    · rw [probingEdges_append, probing, List.append_nil, tier, moves.tier]
    · rw [probingEdges_append, probing, List.append_nil]
      exact moves.moved
  · have probing : probingEdges [Transition.edge (.switched sw)] = [sw.edge] := rfl
    have observing : observingEdges [Transition.edge (.switched sw)] = [] := rfl
    refine ⟨⟨?_, switches.mirror moves.mirror.2⟩, rising _ switches.stamp, ?_, ?_, ?_, ?_⟩
    · rw [switches.observing.2, switches.observing.1, moves.mirror.1]
    · rw [observingEdges_append, observing, List.append_nil, switches.observing.1, moves.flag]
    · rw [observingEdges_append, observing, List.append_nil]
      exact moves.alternate
    · rw [probingEdges_append, probing, lastTier_snoc, switches.probing]
    · rw [probingEdges_append, probing]
      refine moves.moved.snoc ?_
      intro control
      rw [← moves.tier]
      rcases switches.reason with ⟨_, _, changed⟩ | ⟨experiment, _⟩ | ⟨ended, _⟩
      · exact changed
      · rw [control] at experiment
        cases experiment
      · rw [control] at ended
        cases ended

namespace ControlPlane

theorem sentEdges_publish (d : ControlPlane) (event : Event) :
    sentEdges { d with bus := d.bus ++ [.encode (.event event)] } = d.sentEdges := by
  simp [sentEdges, EncodedFrame.encode, StreamFrame.edge?]

theorem edges_publish (d : ControlPlane) (event : Event) :
    edges { d with bus := d.bus ++ [.encode (.event event)] } = d.edges := by
  rw [edges, sentEdges_publish]
  rfl

/-- A move that stamps no edge leaves the state and the edges stamped so far as they were. -/
theorem moves_frame {d d' : ControlPlane} {k : Nat} {t : ControlThread}
    (tracked : EdgesTracked d) (thread : d.threads[k]? = some t) (moved : d.Moves k t d') :
    (d'.shared = d.shared ∧ d'.edges = d.edges ∧ d'.brackets = d.brackets) ∨
      ∃ tsUs mayRestore tr, d.clockUs < tsUs ∧
        lockedSection d.shared t.task tsUs mayRestore = (d'.shared, .ok (some tr)) ∧
        d'.edges = d.edges ++ [tr.edge] ∧
        d'.brackets = d.brackets ++ (bracketOf t.task tsUs).toList := by
  cases moved with
  | refuse | hold | unstamped | handOver | openWindow | fileWindow =>
    exact .inl ⟨rfl, rfl, rfl⟩
  | @flip tsUs mayRestore shared tr entering free later section_ =>
    refine .inr ⟨tsUs, mayRestore, tr, later, section_, ?_, rfl⟩
    simp [edges, free, sentEdges, setPhase]
  | @send tr flipped =>
    have locked := tracked.flipped k t tr thread flipped
    refine .inl ⟨rfl, ?_, rfl⟩
    simp [edges, sentEdges, send, setPhase, locked, EncodedFrame.encode]

end ControlPlane

theorem edgesTracked_start (tier : ProbingTier) (bootedUs : Int) :
    EdgesTracked (.start tier bootedUs) where
  handed := fun e mem => by cases mem
  once := List.nodup_nil
  clock := fun e mem => by cases mem
  flipped := fun k t tr found => by cases found
  sent := fun k t tr found => by cases found
  apart := fun j k t u tr tr' found => by cases found

/-- Threads with an edge under way are tracked on while neither they nor what is known of the
edges changes. -/
theorem EdgesTracked.congr {d d' : ControlPlane} (tracked : EdgesTracked d)
    (lock : d'.snapshotLock = d.snapshotLock) (sent : d'.sentEdges = d.sentEdges)
    (handed : d'.handed = d.handed) (clock : d'.clockUs = d.clockUs)
    (threads : ∀ (j : Nat) (u : ControlThread), d'.threads[j]? = some u →
      (∃ tr, u.phase = .flipped tr ∨ u.phase = .sent tr) → d.threads[j]? = some u) :
    EdgesTracked d' := by
  have edges : d'.edges = d.edges := by rw [ControlPlane.edges, sent, lock]; rfl
  refine ⟨⟨?_, ?_⟩, ?_, ?_, ?_, ?_⟩
  · rw [handed, sent]
    exact tracked.handed
  · rw [handed]
    exact tracked.once
  · rw [edges, clock]
    exact tracked.clock
  · intro k t tr thread flipped
    rw [lock]
    exact tracked.flipped k t tr (threads k t thread ⟨tr, .inl flipped⟩) flipped
  · intro k t tr thread phase
    rw [sent, handed]
    exact tracked.sent k t tr (threads k t thread ⟨tr, .inr phase⟩) phase
  · intro j k t u tr tr' first phase second phase' same
    exact tracked.apart j k t u tr tr' (threads j t first ⟨tr, .inr phase⟩) phase
      (threads k u second ⟨tr', .inr phase'⟩) phase' same

theorem EdgesTracked.setPhase {d : ControlPlane} {k j : Nat} {t u : ControlThread}
    {phase : ThreadPhase} (quiet : ∀ tr, phase ≠ .flipped tr ∧ phase ≠ .sent tr)
    (found : (d.setPhase k t phase).threads[j]? = some u)
    (under : ∃ tr, u.phase = .flipped tr ∨ u.phase = .sent tr) : d.threads[j]? = some u := by
  rcases Runs.getElem?_set_cases found with ⟨_, rfl⟩ | ⟨_, other⟩
  · obtain ⟨tr, flipped | sent⟩ := under
    · exact absurd flipped (quiet tr).1
    · exact absurd sent (quiet tr).2
  · exact other

theorem edgesTracked_flip {d : ControlPlane} {k : Nat} {t : ControlThread} {tsUs : Int}
    {shared : Shared} {tr : Transition} {brackets : List (Episodes.Event Int Int)}
    (tracked : EdgesTracked d) (free : d.snapshotLock = none) (later : d.clockUs < tsUs)
    (stamp : tr.edge.tsUs = tsUs) :
    EdgesTracked { d.setPhase k t (.flipped tr) with
      clockUs := tsUs
      shared := shared
      snapshotLock := some (k, tr.edge)
      brackets := brackets } := by
  have idle (j : Nat) (u : ControlThread) (tr : Transition) (found : d.threads[j]? = some u) :
      u.phase ≠ .flipped tr := by
    intro flipped
    have locked := tracked.flipped j u tr found flipped
    rw [free] at locked
    cases locked
  have others {j : Nat} {u : ControlThread} {tr' : Transition}
      (found : (d.setPhase k t (.flipped tr)).threads[j]? = some u) (sent : u.phase = .sent tr') :
      d.threads[j]? = some u := by
    rcases Runs.getElem?_set_cases found with ⟨_, rfl⟩ | ⟨_, other⟩
    · cases sent
    · exact other
  refine ⟨⟨tracked.handed, tracked.once⟩, ?_, ?_, ?_, ?_⟩
  · intro e mem
    rcases List.mem_append.mp mem with old | new
    · have bound := tracked.clock e (List.mem_append_left _ old)
      change e.tsUs ≤ tsUs
      omega
    · have same : e = tr.edge := by simpa using new
      rw [same, stamp]
  · intro j u tr' found flipped
    rcases Runs.getElem?_set_cases found with ⟨rfl, rfl⟩ | ⟨_, other⟩
    · cases flipped
      rfl
    · exact absurd flipped (idle j u tr' other)
  · intro j u tr' found sent
    exact tracked.sent j u tr' (others found sent) sent
  · intro i j u v tr₁ tr₂ first sent second sent' same
    exact tracked.apart i j u v tr₁ tr₂ (others first sent) sent (others second sent') sent' same

theorem edgesTracked_send {d : ControlPlane} {k : Nat} {t : ControlThread} {tr : Transition}
    (tracked : EdgesTracked d) (order : Rising BoundaryEdge.tsUs d.edges)
    (thread : d.threads[k]? = some t) (flipped : t.phase = .flipped tr) :
    EdgesTracked (d.send k t tr) := by
  have locked := tracked.flipped k t tr thread flipped
  have stamped : d.edges = d.sentEdges ++ [tr.edge] := by simp [ControlPlane.edges, locked]
  have sentEdges : (d.send k t tr).sentEdges = d.sentEdges ++ [tr.edge] := by
    simp [ControlPlane.sentEdges, ControlPlane.send, EncodedFrame.encode]
  have edges : (d.send k t tr).edges = d.edges := by
    rw [ControlPlane.edges, sentEdges, stamped]
    exact List.append_nil _
  have fresh : tr.edge ∉ d.sentEdges := by
    intro mem
    rw [stamped] at order
    have less := (List.pairwise_append.mp order).2.2 _ mem _ (List.mem_singleton_self _)
    omega
  have others {j : Nat} {u : ControlThread} (found : (d.send k t tr).threads[j]? = some u) :
      (j = k ∧ u = { t with phase := .sent tr }) ∨ (j ≠ k ∧ d.threads[j]? = some u) :=
    Runs.getElem?_set_cases found
  refine ⟨⟨?_, tracked.once⟩, ?_, ?_, ?_, ?_⟩
  · intro e mem
    rw [sentEdges]
    exact List.mem_append_left _ (tracked.handed e mem)
  · rw [edges]
    exact tracked.clock
  · intro j u tr' found flipped'
    rcases others found with ⟨_, rfl⟩ | ⟨apart, other⟩
    · cases flipped'
    · have locked' := tracked.flipped j u tr' other flipped'
      rw [locked] at locked'
      exact absurd (congrArg Prod.fst (Option.some.inj locked')).symm apart
  · intro j u tr' found sent
    rw [sentEdges]
    rcases others found with ⟨_, rfl⟩ | ⟨_, other⟩
    · cases sent
      exact ⟨by simp, fun mem => fresh (tracked.handed _ mem)⟩
    · obtain ⟨known, unhanded⟩ := tracked.sent j u tr' other sent
      exact ⟨List.mem_append_left _ known, unhanded⟩
  · intro i j u v tr₁ tr₂ first sent second sent' same
    rcases others first with ⟨rfl, rfl⟩ | ⟨_, one⟩
    · rcases others second with ⟨rfl, rfl⟩ | ⟨_, two⟩
      · rfl
      · cases sent
        exact absurd (same ▸ (tracked.sent j v tr₂ two sent').1) fresh
    · rcases others second with ⟨rfl, rfl⟩ | ⟨_, two⟩
      · cases sent'
        exact absurd (same ▸ (tracked.sent i u tr₁ one sent).1) fresh
      · exact tracked.apart i j u v tr₁ tr₂ one sent two sent' same

theorem edgesTracked_handOver {d : ControlPlane} {k : Nat} {t : ControlThread} {tr : Transition}
    (tracked : EdgesTracked d) (thread : d.threads[k]? = some t) (sent : t.phase = .sent tr) :
    EdgesTracked (d.handOver k t tr) := by
  obtain ⟨known, unhanded⟩ := tracked.sent k t tr thread sent
  have others {j : Nat} {u : ControlThread} (found : (d.handOver k t tr).threads[j]? = some u)
      (under : ∃ tr, u.phase = .flipped tr ∨ u.phase = .sent tr) :
      j ≠ k ∧ d.threads[j]? = some u := by
    rcases Runs.getElem?_set_cases found with ⟨_, rfl⟩ | other
    · obtain ⟨tr', under⟩ := under
      rcases t with ⟨task, phase⟩
      match task, under with
      | .control (.setObserving _) _, .inl eq | .control (.setObserving _) _, .inr eq => cases eq
      | .control (.setProbing _) _, .inl eq | .control (.setProbing _) _, .inr eq => cases eq
      | .control (.startExperiment _) _, .inl eq | .control (.startExperiment _) _, .inr eq =>
        cases eq
      | .finishExperiment .., .inl eq | .finishExperiment .., .inr eq => cases eq
    · exact other
  refine ⟨⟨?_, ?_⟩, tracked.clock, ?_, ?_, ?_⟩
  · intro e mem
    rcases List.mem_append.mp mem with old | new
    · exact tracked.handed e old
    · rw [List.mem_singleton.mp new]
      exact known
  · refine List.nodup_append.mpr ⟨tracked.once, List.nodup_singleton _, ?_⟩
    intro e old e' new same
    rw [List.mem_singleton.mp new] at same
    exact unhanded (same ▸ old)
  · intro j u tr' found flipped
    exact tracked.flipped j u tr' (others found ⟨tr', .inl flipped⟩).2 flipped
  · intro j u tr' found sent'
    obtain ⟨apart, other⟩ := others found ⟨tr', .inr sent'⟩
    obtain ⟨known', unhanded'⟩ := tracked.sent j u tr' other sent'
    refine ⟨known', ?_⟩
    intro mem
    rcases List.mem_append.mp mem with old | new
    · exact unhanded' old
    · exact apart (tracked.apart j k u t tr' tr other sent' thread sent (List.mem_singleton.mp new))
  · intro i j u v tr₁ tr₂ first sent₁ second sent₂ same
    exact tracked.apart i j u v tr₁ tr₂ (others first ⟨tr₁, .inr sent₁⟩).2 sent₁
      (others second ⟨tr₂, .inr sent₂⟩).2 sent₂ same

theorem edgesTracked_moves {d d' : ControlPlane} {k : Nat} {t : ControlThread}
    (tracked : EdgesTracked d) (order : Rising BoundaryEdge.tsUs d.edges)
    (thread : d.threads[k]? = some t) (moved : d.Moves k t d') : EdgesTracked d' := by
  cases moved with
  | refuse message arrived task =>
    exact tracked.congr rfl rfl rfl rfl fun j u => EdgesTracked.setPhase (by simp)
  | hold arrived task free none =>
    exact tracked.congr rfl rfl rfl rfl fun j u => EdgesTracked.setPhase (by simp)
  | @unstamped tsUs mayRestore answer phase entering free section_ phased =>
    refine tracked.congr rfl rfl rfl rfl fun j u => EdgesTracked.setPhase ?_
    rcases phased with ⟨message, _, rfl⟩ | ⟨_, rfl⟩
    · simp
    · rcases t with ⟨⟨_ | _ | _, _⟩ | _, _⟩ <;> simp [ControlPlane.unstampedPhase]
  | flip entering free later section_ =>
    refine edgesTracked_flip tracked free later ?_
    rcases ControlPlane.lockedSection_stamped section_ with
      ⟨_, _, _, _, rfl, _⟩ | ⟨sw, rfl, switches⟩
    · rfl
    · exact switches.stamp
  | send flipped => exact edgesTracked_send tracked order thread flipped
  | handOver sent => exact edgesTracked_handOver tracked thread sent
  | openWindow written task =>
    refine tracked.congr rfl rfl rfl rfl ?_
    intro j u found under
    rcases Runs.getElem?_snoc_cases found with ⟨_, rfl⟩ | old
    · obtain ⟨tr, eq | eq⟩ := under <;> cases eq
    · exact EdgesTracked.setPhase (by simp) old under
  | fileWindow written task free =>
    exact tracked.congr rfl rfl rfl rfl fun j u => EdgesTracked.setPhase (by simp)

/-- What the edges say holds, whatever step comes next. -/
structure EdgeRecord (found : ProbingTier) (d : ControlPlane) : Prop extends EdgesTracked d where
  moves : EdgesMove found d.shared d.edges

theorem edgeRecord_start (tier : ProbingTier) (bootedUs : Int) :
    EdgeRecord tier (.start tier bootedUs) :=
  ⟨edgesTracked_start tier bootedUs,
    ⟨⟨rfl, rfl⟩, rising_nil _, rfl, eachAfter_nil _, rfl, eachAfter_nil _⟩⟩

theorem edgeRecord_step {localInstant : Int → String} {tier : ProbingTier} {d d' : ControlPlane}
    {label : PlaneStep} (stepped : d.step localInstant label = some d')
    (inv : EdgeRecord tier d) : EdgeRecord tier d' := by
  rcases ControlPlane.step_cases stepped with
    ⟨cmd, peerUid, rfl⟩ | ⟨event, rfl⟩ | ⟨k, t, tsUs, mayRestore, _, thread, moved⟩
  · refine ⟨inv.toEdgesTracked.congr rfl rfl rfl rfl ?_, inv.moves⟩
    intro j u found under
    rcases Runs.getElem?_snoc_cases found with ⟨_, rfl⟩ | old
    · obtain ⟨tr, eq | eq⟩ := under <;> cases eq
    · exact old
  · have sent := d.sentEdges_publish event
    refine ⟨inv.toEdgesTracked.congr rfl sent rfl rfl fun _ _ old _ => old, ?_⟩
    rw [d.edges_publish event]
    exact inv.moves
  · refine ⟨edgesTracked_moves inv.toEdgesTracked inv.moves.order thread moved, ?_⟩
    rcases ControlPlane.moves_frame inv.toEdgesTracked thread moved with
      ⟨shared, edges, _⟩ | ⟨tsUs, mayRestore, tr, later, section_, edges, _⟩
    · rw [shared, edges]
      exact inv.moves
    · rw [edges]
      refine inv.moves.stamp ?_ section_
      intro e mem
      have bound := inv.clock e mem
      omega

theorem edgeRecord_run {localInstant : Int → String} {tier : ProbingTier} {bootedUs : Int}
    {labels : List PlaneStep} {d : ControlPlane}
    (ran : Runs.runSteps (ControlPlane.step localInstant) (.start tier bootedUs) labels = some d) :
    EdgeRecord tier d :=
  Runs.runSteps_invariant (fun _ _ _ => edgeRecord_step) ran (edgeRecord_start tier bootedUs)

/-- A command that asks for what is already so; opening a window always marks its start. -/
def ControlCmd.changesNothing (s : Shared) : ControlCmd → Prop
  | .setObserving b => s.observing = b
  | .setProbing tier => s.probing = tier
  | .startExperiment _ => False

theorem lockedSection_changesNothing {s : Shared} {cmd : ControlCmd}
    (idle : cmd.changesNothing s) (peerUid : Nat) (tsUs : Int) (mayRestore : Bool) :
    ControlPlane.lockedSection s (.control cmd peerUid) tsUs mayRestore = (s, .ok none) := by
  cases cmd with
  | setObserving b =>
    have same : s.observing = b := idle
    simp [ControlPlane.lockedSection, setObserving, same]
  | setProbing tier =>
    have same : s.probing = tier := idle
    simp [ControlPlane.lockedSection, ControlPlane.switchedAnswer, setProbing, switchProbing,
      same, Except.map]
  | startExperiment minutes => exact idle.elim

/-- A request that changes nothing is answered without a frame, a row or any other trace. -/
theorem changesNothing_step {localInstant : Int → String} {d d' : ControlPlane} {k : Nat}
    {cmd : ControlCmd} {peerUid : Nat} {tsUs : Int} {mayRestore : Bool}
    (thread : d.threads[k]? = some ⟨.control cmd peerUid, .arrived⟩)
    (idle : cmd.changesNothing d.shared)
    (stepped : d.step localInstant (.advance k tsUs mayRestore) = some d') :
    d'.bus = d.bus ∧ d'.handed = d.handed ∧ d'.shared = d.shared ∧
      d'.threads[k]? = some ⟨.control cmd peerUid, .answered none⟩ := by
  have bound : k < d.threads.length := (List.getElem?_eq_some_iff.mp thread).1
  have unstamped := lockedSection_changesNothing idle peerUid tsUs mayRestore
  have entered : d.enter k ⟨.control cmd peerUid, .arrived⟩ tsUs mayRestore = some d' := by
    obtain ⟨t, found, moved⟩ := Option.bind_eq_some_iff.mp stepped
    rw [thread] at found
    cases found
    cases cmd with
    | setObserving | setProbing => exact moved
    | startExperiment => exact idle.elim
  have phase : ControlPlane.unstampedPhase (.control cmd peerUid) = .answered none := by
    cases cmd with
    | setObserving | setProbing => rfl
    | startExperiment => exact idle.elim
  unfold ControlPlane.enter at entered
  split at entered
  next => cases entered
  next =>
    split at entered
    next => cases entered
    next =>
      rw [unstamped] at entered
      cases entered
      refine ⟨rfl, rfl, rfl, ?_⟩
      change (d.threads.set k _)[k]? = _
      rw [List.getElem?_set_self bound, phase]

/-- The record of the edges agrees with the state, and goes on agreeing at the next step. -/
structure EdgeRecordAgrees (localInstant : Int → String) (found : ProbingTier)
    (d : ControlPlane) : Prop where
  moves : EdgesMove found d.shared d.edges
  sent : d.sentEdges <+: d.edges
  handed : EdgesHanded d
  tierMoves : ∀ label d', d.step localInstant label = some d' →
    probingEdges d'.edges = probingEdges d.edges → d'.shared.probing = d.shared.probing
  flagMoves : ∀ label d', d.step localInstant label = some d' →
    observingEdges d'.edges = observingEdges d.edges → d'.shared.observing = d.shared.observing
  idle : ∀ (k : Nat) (cmd : ControlCmd) (peerUid : Nat) (tsUs : Int) (mayRestore : Bool)
    (d' : ControlPlane), d.threads[k]? = some ⟨.control cmd peerUid, .arrived⟩ →
    cmd.changesNothing d.shared →
    d.step localInstant (.advance k tsUs mayRestore) = some d' →
    (d'.bus = d.bus ∧ d'.handed = d.handed ∧ d'.shared = d.shared) ∧
      ∀ labels e, Runs.runSteps (ControlPlane.step localInstant) d' labels = some e →
        ∀ tsUs mayRestore, e.step localInstant (.advance k tsUs mayRestore) = none

/-- Over every interleaving of the control connections and the experiments' end tasks, the
published edges, read by their instants, are the history of the observing flag and the tier. -/
theorem edge_record_agrees {localInstant : Int → String} {tier : ProbingTier} {bootedUs : Int}
    {labels : List PlaneStep} {d : ControlPlane}
    (ran : Runs.runSteps (ControlPlane.step localInstant) (.start tier bootedUs) labels = some d) :
    EdgeRecordAgrees localInstant tier d := by
  have inv := edgeRecord_run ran
  refine ⟨inv.moves, List.prefix_append _ _, inv.toEdgesHanded, ?_, ?_, ?_⟩
  · intro label d' stepped same
    rw [(edgeRecord_step stepped inv).moves.tier, inv.moves.tier, same]
  · intro label d' stepped same
    rw [(edgeRecord_step stepped inv).moves.flag, inv.moves.flag, same]
  · intro k cmd peerUid tsUs mayRestore d' thread idle stepped
    obtain ⟨bus, handed, shared, answered⟩ := changesNothing_step thread idle stepped
    refine ⟨⟨bus, handed, shared⟩, ?_⟩
    intro labels e ran' tsUs' mayRestore'
    exact ControlPlane.advance_over (ControlPlane.run_over ran' answered rfl) rfl tsUs' mayRestore'

/-- A pause, and beside it a tier switch that waits for the lock. -/
def pauseBesideASwitch : List PlaneStep :=
  [.request (.setObserving false) 501, .request (.setProbing .passive) 502,
    .advance 0 10 false, .advance 0 0 false, .advance 1 11 false, .advance 0 0 false,
    .advance 1 0 false]

theorem edge_record_agrees_pauseBesideASwitch :
    ∃ d, Runs.runSteps (ControlPlane.step Int.repr) (.start .active 0) pauseBesideASwitch =
        some d ∧
      EdgeRecordAgrees Int.repr .active d :=
  ⟨_, rfl, @edge_record_agrees Int.repr .active 0 pauseBesideASwitch _ rfl⟩

end NetObserver
