import NetObserver.ControlPath
import NetObserver.Runs
import NetObserver.Samples
import NetObserver.Timeline

/-! The interval loop of a collector against pauses and resumes, one shared access at a time. -/

namespace NetObserver

/-- Where the control path stands under the snapshot lock. -/
inductive ControlPhase where
  | idle
  | locked (b : Bool)
  | stamped (b : Bool) (tsUs : Int)
  | bracketed (b : Bool) (tsUs : Int)

structure TickStart where
  epoch : Int
  stores : Nat

inductive TickPhase where
  | waiting
  | observing
  | started (t : TickStart)
  | stamped (t : TickStart) (tsUs : Int)
  | collected (t : TickStart) (tsUs : Int) (samples : List Sample)
  | rechecked (t : TickStart) (tsUs : Int) (samples : List Sample) (flips : Nat)
  | sending (t : TickStart) (samples : List Sample) (flips stores : Nat)
  | exited

/-- A sample on the channel, with the flag's stores before its tick's second read of the flag,
and the epochs published before the tick's first and second read of the epoch. -/
structure SentSample where
  sample : Sample
  flips : Nat
  firstStores : Nat
  secondStores : Nat

/-- The atomics, both parties, the stores of the flag in their order and the number of epochs
published, the newest stamp of an edge, and what was sent. -/
structure LoopState where
  shared : Shared
  control : ControlPhase
  tick : TickPhase
  flips : List ObservingEdge
  stores : Nat
  newestUs : Int
  sent : List SentSample

def LoopState.start (observing : Bool) (tier : ProbingTier) : LoopState where
  shared := { Shared.start tier with observing := observing, snapObserving := observing }
  control := .idle
  tick := .waiting
  flips := []
  stores := 0
  newestUs := 0
  sent := []

inductive LoopStep where
  | lock (b : Bool)
  | stampEdge (tsUs : Int)
  | bracket
  | flip (peerUid : Nat)
  | readFlag
  | readEpoch
  | stampTick (tsUs : Int)
  | collect (samples : List Sample)
  | recheckFlag
  | recheckEpoch
  | send
  | receiverDropped

/-- The store a resume or a pause makes before it flips the flag. -/
def Shared.bracket (s : Shared) (b : Bool) (tsUs : Int) : Shared :=
  if b then { s with resumeAtUs := tsUs }
  else { s with sessionEndUs := firstEnd s.sessionEndUs tsUs }

def Shared.flip (s : Shared) (b : Bool) : Shared := { s with observing := b, snapObserving := b }

/-- The small steps of a toggle make up the whole of it. -/
theorem flip_bracket_eq_setObserving {s : Shared} {b : Bool} (moves : s.observing ≠ b)
    (peerUid : Nat) (tsUs : Int) :
    setObserving s b peerUid tsUs =
      ((s.bracket b tsUs).flip b, some ⟨tsUs, b, some peerUid, .control⟩) := by
  simp [setObserving, moves, Shared.bracket, Shared.flip]

namespace LoopState

/-- A step of the control path: the lock is free, and the edges' stamps rise. -/
def controlStep (d : LoopState) : LoopStep → Option LoopState
  | .lock b =>
    match d.control with
    | .idle =>
      if d.shared.observing = b then some d else some { d with control := .locked b }
    | _ => none
  | .stampEdge tsUs =>
    match d.control with
    | .locked b =>
      if d.newestUs < tsUs then some { d with control := .stamped b tsUs, newestUs := tsUs }
      else none
    | _ => none
  | .bracket =>
    match d.control with
    | .stamped b tsUs =>
      some { d with
        control := .bracketed b tsUs
        shared := d.shared.bracket b tsUs
        stores := if b then d.stores + 1 else d.stores }
    | _ => none
  | .flip peerUid =>
    match d.control with
    | .bracketed b tsUs =>
      some { d with
        control := .idle
        shared := d.shared.flip b
        flips := d.flips ++ [⟨tsUs, b, some peerUid, .control⟩] }
    | _ => none
  | _ => none

/-- A step of the loop. Its clock does not read an instant before the newest edge's, and a
collector stamps its samples with the tick's own instant. -/
def tickStep (d : LoopState) : LoopStep → Option LoopState
  | .readFlag =>
    match d.tick with
    | .waiting => some { d with tick := if d.shared.observing then .observing else .waiting }
    | _ => none
  | .readEpoch =>
    match d.tick with
    | .observing => some { d with tick := .started ⟨d.shared.resumeAtUs, d.stores⟩ }
    | _ => none
  | .stampTick tsUs =>
    match d.tick with
    | .started t => if d.newestUs ≤ tsUs then some { d with tick := .stamped t tsUs } else none
    | _ => none
  | .collect samples =>
    match d.tick with
    | .stamped t tsUs =>
      if ∀ s ∈ samples, s.tsUs = tsUs then some { d with tick := .collected t tsUs samples }
      else none
    | _ => none
  | .recheckFlag =>
    match d.tick with
    | .collected t tsUs samples =>
      some { d with
        tick := if d.shared.observing then .rechecked t tsUs samples d.flips.length else .waiting }
    | _ => none
  | .recheckEpoch =>
    match d.tick with
    | .rechecked t _ samples flips =>
      some { d with
        tick := if d.shared.resumeAtUs ≠ t.epoch then .waiting
          else .sending t samples flips d.stores }
    | _ => none
  | .send =>
    match d.tick with
    | .sending t (s :: samples) flips stores =>
      some { d with
        tick := if samples = [] then .waiting else .sending t samples flips stores
        sent := d.sent ++ [⟨s, flips, t.stores, stores⟩] }
    | .sending _ [] _ _ => some { d with tick := .waiting }
    | _ => none
  | .receiverDropped =>
    match d.tick with
    | .sending _ (_ :: _) _ _ => some { d with tick := .exited }
    | _ => none
  | _ => none

def step (d : LoopState) (label : LoopStep) : Option LoopState :=
  (d.controlStep label).or (d.tickStep label)

end LoopState

/-- An instant at or after the pause at a position, and before the next resume. -/
def InsidePause (flips : List ObservingEdge) (i : Nat) (tsUs : Int) : Prop :=
  ∃ p, flips[i]? = some p ∧ p.observing = false ∧ p.tsUs ≤ tsUs ∧
    ∀ r, (flips.drop (i + 1)).find? ObservingEdge.observing = some r → tsUs < r.tsUs

/-- What a sent sample keeps clear of: every pause whose flag its tick could see at its second
look, and every resume published between its two reads of the epoch. -/
structure SentSample.Outside (s : SentSample) (flips : List ObservingEdge) : Prop where
  noPause : ∀ i < s.flips, ¬ InsidePause flips i s.sample.tsUs
  noStraddle : s.firstStores = s.secondStores

def EndsObserving (flips : List ObservingEdge) : Prop :=
  ∀ e, flips.getLast? = some e → e.observing = true

def ResumedBy (flips : List ObservingEdge) (tsUs : Int) : Prop :=
  ∀ e ∈ flips, e.observing = true → e.tsUs ≤ tsUs

structure SentSample.Clear (s : SentSample) (flips : List ObservingEdge) : Prop where
  seen : s.flips ≤ flips.length
  observing : EndsObserving (flips.take s.flips)
  resumed : ResumedBy (flips.take s.flips) s.sample.tsUs
  noStraddle : s.firstStores = s.secondStores

theorem SentSample.Clear.snoc {s : SentSample} {flips : List ObservingEdge} (clear : s.Clear flips)
    (e : ObservingEdge) : s.Clear (flips ++ [e]) := by
  obtain ⟨seen, observing, resumed, noStraddle⟩ := clear
  have same : (flips ++ [e]).take s.flips = flips.take s.flips := List.take_append_of_le_length seen
  refine ⟨?_, same ▸ observing, same ▸ resumed, noStraddle⟩
  rw [List.length_append]
  omega

/-- A pause among stores that end with the flag set is followed by a resume among them. -/
theorem exists_resume_after {flips : List ObservingEdge} (ends : EndsObserving flips) {i : Nat}
    {p : ObservingEdge} (pause : flips[i]? = some p) (paused : p.observing = false) :
    ∃ r, (flips.drop (i + 1)).find? ObservingEdge.observing = some r := by
  obtain ⟨before, _⟩ := List.getElem?_eq_some_iff.mp pause
  have behind : flips.drop (i + 1) ≠ [] := by
    intro none
    have short := List.drop_eq_nil_iff.mp none
    have atEnd : flips.getLast? = some p := by
      rw [List.getLast?_eq_getElem?, show flips.length - 1 = i by omega, pause]
    have contra := ends p atEnd
    rw [paused] at contra
    cases contra
  obtain ⟨last, found⟩ : ∃ e, (flips.drop (i + 1)).getLast? = some e :=
    ⟨_, List.getLast?_eq_some_getLast behind⟩
  have whole : flips.getLast? = some last := by
    rw [List.getLast?_drop] at found
    split at found
    · cases found
    · exact found
  have set : ((flips.drop (i + 1)).find? ObservingEdge.observing).isSome := by
    rw [List.find?_isSome]
    exact ⟨last, List.mem_of_getLast? found, ends last whole⟩
  exact Option.isSome_iff_exists.mp set

theorem SentSample.Clear.outside {s : SentSample} {flips : List ObservingEdge}
    (clear : s.Clear flips) : s.Outside flips := by
  refine ⟨?_, clear.noStraddle⟩
  rintro i early ⟨p, pause, paused, _, next⟩
  have pauseSeen : (flips.take s.flips)[i]? = some p := by
    rw [List.getElem?_take_of_lt early, pause]
  obtain ⟨r, found⟩ := exists_resume_after clear.observing pauseSeen paused
  have whole : (flips.drop (i + 1)).find? ObservingEdge.observing = some r := by
    have parts : flips.drop (i + 1) =
        (flips.take s.flips).drop (i + 1) ++ flips.drop s.flips := by
      conv_lhs => rw [← List.take_append_drop s.flips flips]
      exact List.drop_append_of_le_length (by rw [List.length_take]; have seen := clear.seen; omega)
    rw [parts, List.find?_append, found]
    rfl
  have later := next r whole
  have mem : r ∈ flips.take s.flips := List.mem_of_mem_drop (List.mem_of_find?_eq_some found)
  have earlier := clear.resumed r mem (List.find?_some found)
  omega

/-- A tick's epoch is never ahead of the one in force, and equal to it only while no epoch has
been published since the tick read it. -/
structure TickStart.Reads (t : TickStart) (epoch : Int) (stores : Nat) : Prop where
  fewer : t.stores ≤ stores
  older : t.epoch ≤ epoch
  same : t.epoch = epoch → t.stores = stores

theorem TickStart.Reads.advance {t : TickStart} {epoch later : Int} {stores more : Nat}
    (reads : t.Reads epoch stores) (moved : epoch < later ∧ stores < more ∨
      epoch = later ∧ stores = more) : t.Reads later more := by
  obtain ⟨fewer, older, same⟩ := reads
  rcases moved with ⟨newer, stored⟩ | ⟨rfl, rfl⟩
  · exact ⟨by omega, by omega, fun eq => by omega⟩
  · exact ⟨fewer, older, same⟩

/-- What a tick in flight may rely on, with the epoch in force, the epochs published and the
stores of the flag. -/
def TickPhase.Sound (epoch : Int) (stores : Nat) (flips : List ObservingEdge) : TickPhase → Prop
  | .waiting | .observing | .exited => True
  | .started t => t.Reads epoch stores
  | .stamped t tsUs => t.Reads epoch stores ∧ t.epoch ≤ tsUs
  | .collected t tsUs samples =>
    t.Reads epoch stores ∧ t.epoch ≤ tsUs ∧ ∀ s ∈ samples, s.tsUs = tsUs
  | .rechecked t tsUs samples seen =>
    t.Reads epoch stores ∧ t.epoch ≤ tsUs ∧ (∀ s ∈ samples, s.tsUs = tsUs) ∧
      seen ≤ flips.length ∧ EndsObserving (flips.take seen) ∧ ResumedBy (flips.take seen) epoch
  | .sending t samples seen second =>
    ∀ s ∈ samples, SentSample.Clear ⟨s, seen, t.stores, second⟩ flips

theorem ResumedBy.mono {flips : List ObservingEdge} {tsUs later : Int} (resumed : ResumedBy flips tsUs)
    (le : tsUs ≤ later) : ResumedBy flips later :=
  fun e mem observing => Int.le_trans (resumed e mem observing) le

/-- A tick in flight stays sound over a new epoch. -/
theorem TickPhase.Sound.advance {tick : TickPhase} {epoch later : Int} {stores more : Nat}
    {flips : List ObservingEdge} (sound : tick.Sound epoch stores flips)
    (moved : epoch < later ∧ stores < more ∨ epoch = later ∧ stores = more) :
    tick.Sound later more flips := by
  cases tick with
  | waiting | observing | exited => trivial
  | started t => exact TickStart.Reads.advance sound moved
  | stamped t tsUs => exact ⟨sound.1.advance moved, sound.2⟩
  | collected t tsUs samples => exact ⟨sound.1.advance moved, sound.2⟩
  | rechecked t tsUs samples seen =>
    obtain ⟨reads, stamped, samplesAt, seenBy, ends, resumed⟩ := sound
    have le : epoch ≤ later := by omega
    exact ⟨reads.advance moved, stamped, samplesAt, seenBy, ends, resumed.mono le⟩
  | sending t samples seen second => exact sound

theorem TickPhase.Sound.snoc {tick : TickPhase} {epoch : Int} {stores : Nat}
    {flips : List ObservingEdge} (sound : tick.Sound epoch stores flips) (e : ObservingEdge) :
    tick.Sound epoch stores (flips ++ [e]) := by
  cases tick with
  | waiting | observing | exited => trivial
  | started t => exact sound
  | stamped t tsUs => exact sound
  | collected t tsUs samples => exact sound
  | rechecked t tsUs samples seen =>
    obtain ⟨reads, stamped, samplesAt, seenBy, ends, resumed⟩ := sound
    have same : (flips ++ [e]).take seen = flips.take seen :=
      List.take_append_of_le_length seenBy
    refine ⟨reads, stamped, samplesAt, ?_, same ▸ ends, same ▸ resumed⟩
    rw [List.length_append]
    omega
  | sending t samples seen second => exact fun s mem => (sound s mem).snoc e

def ControlPhase.Sound (epoch newestUs : Int) : ControlPhase → Prop
  | .idle | .locked _ => True
  | .stamped _ tsUs => epoch < tsUs ∧ tsUs ≤ newestUs
  | .bracketed b tsUs => b = true → tsUs ≤ epoch

/-- The epoch in force is an edge's, no older than any resume the flag has shown. -/
structure LoopState.Sound (d : LoopState) : Prop where
  control : d.control.Sound d.shared.resumeAtUs d.newestUs
  epoch : d.shared.resumeAtUs ≤ d.newestUs
  flag : ∀ e, d.flips.getLast? = some e → e.observing = d.shared.observing
  resumed : ResumedBy d.flips d.shared.resumeAtUs
  tick : d.tick.Sound d.shared.resumeAtUs d.stores d.flips
  sent : ∀ s ∈ d.sent, s.Clear d.flips

theorem LoopState.sound_start (observing : Bool) (tier : ProbingTier) :
    (start observing tier).Sound := by
  refine ⟨trivial, Int.le_refl 0, ?_, ?_, trivial, ?_⟩
  · intro e last
    cases last
  · intro e mem
    cases mem
  · intro s mem
    cases mem

namespace LoopState

theorem sound_controlStep {d d' : LoopState} {label : LoopStep}
    (stepped : d.controlStep label = some d') (sound : d.Sound) : d'.Sound := by
  obtain ⟨control, epoch, flag, resumed, tick, sent⟩ := sound
  cases label with
  | lock b =>
    simp only [controlStep] at stepped
    split at stepped
    next =>
      split at stepped
      next =>
        cases stepped
        exact ⟨control, epoch, flag, resumed, tick, sent⟩
      next =>
        cases stepped
        exact ⟨trivial, epoch, flag, resumed, tick, sent⟩
    next => cases stepped
  | stampEdge tsUs =>
    simp only [controlStep] at stepped
    split at stepped
    next b phase =>
      split at stepped
      next later =>
        cases stepped
        refine ⟨⟨?_, Int.le_refl _⟩, ?_, flag, resumed, tick, sent⟩
        · exact Int.lt_of_le_of_lt epoch later
        · exact Int.le_trans epoch (Int.le_of_lt later)
      next => cases stepped
    next => cases stepped
  | bracket =>
    simp only [controlStep] at stepped
    split at stepped
    next b tsUs phase =>
      cases stepped
      rw [phase] at control
      obtain ⟨later, stamped⟩ := control
      cases b with
      | true =>
        have ticked := tick.advance (.inl ⟨later, Nat.lt_succ_self d.stores⟩)
        exact ⟨fun _ => Int.le_refl _, stamped, flag, resumed.mono (Int.le_of_lt later), ticked, sent⟩
      | false => exact ⟨fun off => (by cases off), epoch, flag, resumed, tick, sent⟩
    next => cases stepped
  | flip peerUid =>
    simp only [controlStep] at stepped
    split at stepped
    next b tsUs phase =>
      cases stepped
      rw [phase] at control
      refine ⟨trivial, epoch, ?_, ?_, tick.snoc _, fun s mem => (sent s mem).snoc _⟩
      · intro e last
        simp only [List.getLast?_append, List.getLast?_singleton, Option.some_or] at last
        cases last
        rfl
      · intro e mem observing
        rcases List.mem_append.mp mem with old | new
        · exact resumed e old observing
        · rw [List.mem_singleton.mp new] at observing ⊢
          exact control observing
    next => cases stepped
  | readFlag | readEpoch | stampTick | collect | recheckFlag | recheckEpoch | send
  | receiverDropped => cases stepped

theorem sound_tickStep {d d' : LoopState} {label : LoopStep}
    (stepped : d.tickStep label = some d') (sound : d.Sound) : d'.Sound := by
  obtain ⟨control, epoch, flag, resumed, tick, sent⟩ := sound
  cases label with
  | readFlag =>
    simp only [tickStep] at stepped
    split at stepped
    next =>
      cases stepped
      refine ⟨control, epoch, flag, resumed, ?_, sent⟩
      cases d.shared.observing <;> trivial
    next => cases stepped
  | readEpoch =>
    simp only [tickStep] at stepped
    split at stepped
    next =>
      cases stepped
      exact ⟨control, epoch, flag, resumed, ⟨Nat.le_refl _, Int.le_refl _, fun _ => rfl⟩, sent⟩
    next => cases stepped
  | stampTick tsUs =>
    simp only [tickStep] at stepped
    split at stepped
    next t phase =>
      split at stepped
      next notBefore =>
        cases stepped
        rw [phase] at tick
        have older := tick.older
        exact ⟨control, epoch, flag, resumed, ⟨tick, by omega⟩, sent⟩
      next => cases stepped
    next => cases stepped
  | collect samples =>
    simp only [tickStep] at stepped
    split at stepped
    next t tsUs phase =>
      split at stepped
      next samplesAt =>
        cases stepped
        rw [phase] at tick
        exact ⟨control, epoch, flag, resumed, ⟨tick.1, tick.2, samplesAt⟩, sent⟩
      next => cases stepped
    next => cases stepped
  | recheckFlag =>
    simp only [tickStep] at stepped
    split at stepped
    next t tsUs samples phase =>
      cases stepped
      rw [phase] at tick
      obtain ⟨reads, stamped, samplesAt⟩ := tick
      cases observing : d.shared.observing with
      | false => exact ⟨control, epoch, flag, resumed, trivial, sent⟩
      | true =>
        have all : d.flips.take d.flips.length = d.flips := List.take_length
        refine ⟨control, epoch, flag, resumed, ⟨reads, stamped, samplesAt, Nat.le_refl _, ?_, ?_⟩,
          sent⟩
        · rw [all]
          exact fun e last => (flag e last).trans observing
        · rwa [all]
    next => cases stepped
  | recheckEpoch =>
    simp only [tickStep] at stepped
    split at stepped
    next t tsUs samples seen phase =>
      cases stepped
      rw [phase] at tick
      obtain ⟨reads, stamped, samplesAt, seenBy, ends, shown⟩ := tick
      by_cases same : d.shared.resumeAtUs = t.epoch
      · rw [if_neg (not_not_intro same)]
        refine ⟨control, epoch, flag, resumed, ?_, sent⟩
        intro s mem
        have atTick := samplesAt s mem
        refine ⟨seenBy, ends, shown.mono ?_, reads.same same.symm⟩
        change d.shared.resumeAtUs ≤ s.tsUs
        omega
      · rw [if_pos same]
        exact ⟨control, epoch, flag, resumed, trivial, sent⟩
    next => cases stepped
  | send =>
    simp only [tickStep] at stepped
    split at stepped
    next t s samples seen second phase =>
      cases stepped
      rw [phase] at tick
      refine ⟨control, epoch, flag, resumed, ?_, ?_⟩
      · change TickPhase.Sound _ _ _ (if samples = [] then _ else _)
        split
        · trivial
        · exact fun x mem => tick x (List.mem_cons_of_mem s mem)
      · intro x mem
        rcases List.mem_append.mp mem with old | new
        · exact sent x old
        · rw [List.mem_singleton.mp new]
          exact tick s List.mem_cons_self
    next =>
      cases stepped
      exact ⟨control, epoch, flag, resumed, trivial, sent⟩
    next => cases stepped
  | receiverDropped =>
    simp only [tickStep] at stepped
    split at stepped
    next =>
      cases stepped
      exact ⟨control, epoch, flag, resumed, trivial, sent⟩
    next => cases stepped
  | lock | stampEdge | bracket | flip => cases stepped

theorem sound_step {d d' : LoopState} {label : LoopStep} (stepped : d.step label = some d')
    (sound : d.Sound) : d'.Sound := by
  unfold step at stepped
  cases controlled : d.controlStep label with
  | some e =>
    rw [controlled, Option.some_or] at stepped
    cases stepped
    exact sound_controlStep controlled sound
  | none =>
    rw [controlled, Option.none_or] at stepped
    exact sound_tickStep stepped sound

end LoopState

/-- Over every interleaving, no sample lies inside a pause whose flag was stored before its
tick's second look at it, and none of a tick between whose reads of the epoch one was
published. -/
theorem sent_samples_outside {observing : Bool} {tier : ProbingTier} {labels : List LoopStep}
    {d : LoopState} (ran : Runs.runSteps LoopState.step (.start observing tier) labels = some d) :
    ∀ s ∈ d.sent, s.Outside d.flips := by
  have sound := Runs.runSteps_invariant (fun _ _ _ => LoopState.sound_step) ran
    (LoopState.sound_start observing tier)
  exact fun s mem => (sound.sent s mem).outside

/-- A tick that is stamped and looks twice while a pause already stamped has not flipped the
flag, and a resume after it. -/
def tickBeforeTheFlip : List LoopStep :=
  [.readFlag, .lock false, .stampEdge 10, .readEpoch, .stampTick 11,
    .collect [.link (.gatewayOnly 11 .ok)], .recheckFlag, .recheckEpoch, .send, .bracket, .flip 501,
    .lock true, .stampEdge 20, .bracket, .flip 501]

def tickBeforeTheFlipEdges : List ObservingEdge :=
  [⟨10, false, some 501, .control⟩, ⟨20, true, some 501, .control⟩]

def sentBeforeTheFlip : SentSample := ⟨.link (.gatewayOnly 11 .ok), 0, 0, 0⟩

theorem sample_inside_a_pause :
    (Runs.runSteps LoopState.step (.start true .active) tickBeforeTheFlip).map
        (fun d => (d.flips, d.sent)) = some (tickBeforeTheFlipEdges, [sentBeforeTheFlip]) ∧
      InsidePause tickBeforeTheFlipEdges 0 sentBeforeTheFlip.sample.tsUs := by
  refine ⟨rfl, ⟨10, false, some 501, .control⟩, rfl, rfl, by decide, ?_⟩
  intro r found
  cases found
  decide

theorem sent_samples_outside_afterResume :
    (⟨.link (.gatewayOnly 21 .ok), 2, 1, 1⟩ : SentSample).Outside tickBeforeTheFlipEdges :=
  @sent_samples_outside true .active
    [.lock false, .stampEdge 10, .bracket, .flip 501, .lock true, .stampEdge 20, .bracket,
      .flip 501, .readFlag, .readEpoch, .stampTick 21, .collect [.link (.gatewayOnly 21 .ok)],
      .recheckFlag, .recheckEpoch, .send] _ rfl _ (List.mem_singleton_self _)

end NetObserver
