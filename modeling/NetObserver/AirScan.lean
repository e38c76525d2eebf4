import NetObserver.Latch
import NetObserver.OperatorScans

/-! The on-demand air scan: presses from any number of connections against one latch, one interval
and the observation flag, one shared access at a time. -/

namespace NetObserver

inductive AirRead where
  | scan (aps : List AirObservation)
  | unavailable (reason : String)

/-- A read that could not run still leaves a sample, with its reason. -/
def buildAirSample (tsUs : Int) : AirRead → AirSample
  | .unavailable reason => ⟨tsUs, .skip, some reason, []⟩
  | .scan aps => ⟨tsUs, .ok, none, aps⟩

/-- `AIR_SCAN_MIN_INTERVAL`, in nanoseconds. -/
def airScanMinInterval : Nat := 15 * 1000000000

inductive AirScanRequest where
  | started
  | alreadyRunning
  | tooSoon (retryInS : Nat)

/-- The seconds a refusal names, if the last accepted scan is too near; `none` is to go ahead. -/
def tooSoon (lastStart : Option Nat) (now : Nat) : Option Nat :=
  lastStart.bind fun last =>
    let waited := now - last
    if airScanMinInterval ≤ waited then none
    else
      let left := airScanMinInterval - waited
      some (left / 1000000000 + if 0 < left % 1000000000 then 1 else 0)

/-- A request's reading of the monotonic clock, and the instant it claimed the latch. -/
structure AirClaim where
  now : Nat
  claimedNs : Nat

/-- How long a request took from its reading of the clock to the latch. -/
def AirClaim.lag (c : AirClaim) : Nat := c.claimedNs - c.now

/-- Where a request and the task it spawns stand. -/
inductive AirPhase where
  | pressed
  | observing
  | clocked (now : Nat)
  | claimed (c : AirClaim)
  | refusing (retryInS : Nat)
  | passed (c : AirClaim)
  | accepted
  | spawned
  | reading
  | read (answer : AirRead)
  | rechecked (answer : AirRead) (flips : Nat)
  | stamped (sample : AirSample) (flips : Nat)
  | leaving
  | paused
  | answered (request : AirScanRequest)

/-- Between the claim of the latch and its release, by the request or by the task's guard. -/
def AirPhase.holds : AirPhase → Bool
  | claimed _ | refusing _ | passed _ | accepted | spawned | reading | read _ | rechecked .. |
    stamped .. | leaving => true
  | pressed | observing | clocked _ | paused | answered _ => false

/-- A refusal for being too soon: when it was decided, what it said, and how many requests had
been accepted. -/
structure AirRefusal where
  atNs : Nat
  retryInS : Nat
  accepted : Nat

/-- A sample on the stream, with the flips of the flag before its task's second look at it. -/
structure SentAir where
  sample : AirSample
  flips : Nat

/-- The control path, the wall clock and the monotonic one, the scanner's latch and stamp, the
requests with their tasks, and what they came to. -/
structure AirState where
  loop : LoopState
  clockUs : Int
  nowNs : Nat
  running : Bool
  lastStart : Option Nat
  threads : List AirPhase
  accepted : List AirClaim
  refusals : List AirRefusal
  sent : List SentAir

def AirState.start (observing : Bool) (tier : ProbingTier) : AirState where
  loop := .start observing tier
  clockUs := 0
  nowNs := 0
  running := false
  lastStart := none
  threads := []
  accepted := []
  refusals := []
  sent := []

inductive AirStep where
  | control (label : LoopStep)
  | elapse (ns : Nat)
  | press
  | readFlag (i : Nat)
  | readClock (i : Nat)
  | claim (i : Nat)
  | check (i : Nat)
  | release (i : Nat)
  | stampStart (i : Nat)
  | spawn (i : Nat)
  | begin (i : Nat)
  | finish (i : Nat) (answer : AirRead)
  | recheck (i : Nat)
  | stamp (i : Nat) (tsUs : Int)
  | send (i : Nat) (through : Bool)
  | fail (i : Nat)
  | leave (i : Nat)

namespace AirState

def setPhase (d : AirState) (i : Nat) (phase : AirPhase) : AirState :=
  { d with threads := d.threads.set i phase }

/-- A step of one request or of its task, from where it stands. -/
def threadStep (d : AirState) (i : Nat) : AirPhase → AirStep → Option AirState
  | .pressed, .readFlag _ =>
    some (d.setPhase i (if d.loop.shared.observing then .observing else .paused))
  | .observing, .readClock _ => some (d.setPhase i (.clocked d.nowNs))
  | .clocked now, .claim _ =>
    some (if d.running then d.setPhase i (.answered .alreadyRunning)
      else { d.setPhase i (.claimed ⟨now, d.nowNs⟩) with running := true })
  | .claimed c, .check _ =>
    match tooSoon d.lastStart c.now with
    | some retryInS =>
      some { d.setPhase i (.refusing retryInS) with
        refusals := d.refusals ++ [⟨d.nowNs, retryInS, d.accepted.length⟩] }
    | none => some (d.setPhase i (.passed c))
  | .refusing retryInS, .release _ =>
    some { d.setPhase i (.answered (.tooSoon retryInS)) with running := false }
  | .passed c, .stampStart _ =>
    some { d.setPhase i .accepted with
      lastStart := some c.now
      accepted := d.accepted ++ [c] }
  | .accepted, .spawn _ => some (d.setPhase i .spawned)
  | .spawned, .begin _ => some (d.setPhase i .reading)
  | .reading, .finish _ answer => some (d.setPhase i (.read answer))
  | .read answer, .recheck _ =>
    some (d.setPhase i
      (if d.loop.shared.observing then .rechecked answer d.loop.flips.length else .leaving))
  | .rechecked answer flips, .stamp _ tsUs =>
    if d.clockUs ≤ tsUs then
      some { d.setPhase i (.stamped (buildAirSample tsUs answer) flips) with clockUs := tsUs }
    else none
  | .stamped sample flips, .send _ through =>
    some { d.setPhase i .leaving with
      sent := d.sent ++ if through then [⟨sample, flips⟩] else [] }
  -- A panic inside the task unwinds through its guard.
  | .reading, .fail _ | .read _, .fail _ | .rechecked .., .fail _ | .stamped .., .fail _ =>
    some (d.setPhase i .leaving)
  | .leaving, .leave _ => some { d.setPhase i (.answered .started) with running := false }
  | _, _ => none

def ofThread (d : AirState) (i : Nat) (label : AirStep) : Option AirState :=
  d.threads[i]?.bind fun phase => d.threadStep i phase label

/-- Neither clock runs backwards. -/
def step (d : AirState) (label : AirStep) : Option AirState :=
  match label with
  | .control l =>
    match l.reading with
    | none => (d.loop.controlStep l).map fun loop => { d with loop := loop }
    | some tsUs =>
      if d.clockUs ≤ tsUs then
        (d.loop.controlStep l).map fun loop => { d with loop := loop, clockUs := tsUs }
      else none
  | .elapse ns => some { d with nowNs := d.nowNs + ns }
  | .press => some { d with threads := d.threads ++ [.pressed] }
  | .readFlag i | .readClock i | .claim i | .check i | .release i | .stampStart i | .spawn i |
    .begin i | .finish i _ | .recheck i | .stamp i _ | .send i _ | .fail i | .leave i =>
    d.ofThread i label

end AirState

/-- The toggles that a task's second look at the flag did not show, stamped no later than its
sample, end with a pause. -/
def SentAir.Overtaken (s : SentAir) (toggles : List ObservingEdge) : Prop :=
  ¬ EndsObserving ((toggles.filter fun e => e.tsUs ≤ s.sample.tsUs).drop s.flips)

/-- Of toggles in the order of their stamps, those up to an instant are the first ones. -/
theorem filter_le_eq_take {toggles : List ObservingEdge}
    (ordered : toggles.Pairwise fun a b => a.tsUs < b.tsUs) (tsUs : Int) :
    toggles.filter (fun e => e.tsUs ≤ tsUs) =
      toggles.take (toggles.filter fun e => e.tsUs ≤ tsUs).length := by
  induction toggles with
  | nil => rfl
  | cons e rest ih =>
    obtain ⟨least, ordered⟩ := List.pairwise_cons.mp ordered
    by_cases upTo : e.tsUs ≤ tsUs
    · rw [List.filter_cons_of_pos (by simpa using upTo), List.length_cons, List.take_succ_cons,
        ← ih ordered]
    · have none : rest.filter (fun e => e.tsUs ≤ tsUs) = [] := by
        refine List.filter_eq_nil_iff.mpr fun f mem => ?_
        have later := least f mem
        simp only [decide_eq_true_eq]
        omega
      rw [List.filter_cons_of_neg (by simpa using upTo), none]
      rfl

/-- An instant is inside a pause exactly when the newest toggle up to it is one. -/
theorem insidePause_iff {toggles : List ObservingEdge}
    (ordered : toggles.Pairwise fun a b => a.tsUs < b.tsUs) (tsUs : Int) :
    (∃ i, InsidePause toggles i tsUs) ↔
      ¬ EndsObserving (toggles.filter fun e => e.tsUs ≤ tsUs) := by
  have front := filter_le_eq_take ordered tsUs
  have split : toggles = (toggles.filter fun e => e.tsUs ≤ tsUs) ++
      toggles.drop (toggles.filter fun e => e.tsUs ≤ tsUs).length := by
    conv_lhs => rw [← List.take_append_drop (toggles.filter fun e => e.tsUs ≤ tsUs).length toggles]
    rw [← front]
  have upTo : ∀ e ∈ toggles.take (toggles.filter fun e => e.tsUs ≤ tsUs).length,
      e.tsUs ≤ tsUs := by
    intro e mem
    rw [← front] at mem
    simpa using (List.mem_filter.mp mem).2
  have behind : ∀ e ∈ toggles.drop (toggles.filter fun e => e.tsUs ≤ tsUs).length,
      tsUs < e.tsUs := by
    intro e mem
    by_contra early
    have held : e ∈ toggles.filter fun e => e.tsUs ≤ tsUs :=
      List.mem_filter.mpr ⟨List.mem_of_mem_drop mem, decide_eq_true (by omega)⟩
    rw [split, List.pairwise_append] at ordered
    have apart := ordered.2.2 e held e mem
    omega
  rw [insidePause_between (List.length_filter_le _ _) upTo behind, ← front]

/-- The flips a look at the flag showed are toggles and end observing. -/
def SeenObserving (toggles : List ObservingEdge) (flips : Nat) : Prop :=
  flips ≤ toggles.length ∧ EndsObserving (toggles.take flips)

theorem SeenObserving.grow {toggles : List ObservingEdge} {flips : Nat}
    (seen : SeenObserving toggles flips) (new : List ObservingEdge) :
    SeenObserving (toggles ++ new) flips := by
  obtain ⟨within, observing⟩ := seen
  refine ⟨?_, ?_⟩
  · rw [List.length_append]
    omega
  · rwa [List.take_append_of_le_length within]

/-- A sample stamped behind the look at the flag. -/
structure SentAir.Seen (s : SentAir) (toggles : List ObservingEdge) : Prop where
  observing : SeenObserving toggles s.flips
  before : ∀ e ∈ toggles.take s.flips, e.tsUs ≤ s.sample.tsUs

theorem SentAir.Seen.grow {s : SentAir} {toggles : List ObservingEdge} (seen : s.Seen toggles)
    (new : List ObservingEdge) : s.Seen (toggles ++ new) := by
  refine ⟨seen.observing.grow new, fun e mem => seen.before e ?_⟩
  rwa [List.take_append_of_le_length seen.observing.1] at mem

/-- A sample lies inside a pause exactly when a pause has overtaken it. -/
theorem SentAir.Seen.insidePause_iff {s : SentAir} {toggles : List ObservingEdge}
    (seen : s.Seen toggles) (ordered : toggles.Pairwise fun a b => a.tsUs < b.tsUs) :
    (∃ i, InsidePause toggles i s.sample.tsUs) ↔ s.Overtaken toggles := by
  obtain ⟨⟨within, observing⟩, before⟩ := seen
  have parts : toggles.filter (fun e => e.tsUs ≤ s.sample.tsUs) =
      toggles.take s.flips ++ (toggles.drop s.flips).filter fun e => e.tsUs ≤ s.sample.tsUs := by
    conv_lhs => rw [← List.take_append_drop s.flips toggles]
    rw [List.filter_append]
    congr 1
    exact List.filter_eq_self.mpr fun e mem => decide_eq_true (before e mem)
  have shown : (toggles.filter fun e => e.tsUs ≤ s.sample.tsUs).take s.flips =
      toggles.take s.flips := by
    rw [parts]
    exact List.take_left' (List.length_take_of_le within)
  rw [NetObserver.insidePause_iff ordered, SentAir.Overtaken, endsObserving_drop]
  rw [shown]
  exact observing

/-- What a request or a task in flight may rely on. -/
def AirPhase.Sound (toggles : List ObservingEdge) (nowNs : Nat) (lastStart : Option Nat) :
    AirPhase → Prop
  | clocked now => now ≤ nowNs
  | claimed c => c.now ≤ c.claimedNs ∧ c.claimedNs ≤ nowNs
  | passed c => c.now ≤ c.claimedNs ∧ c.claimedNs ≤ nowNs ∧ tooSoon lastStart c.now = none
  | rechecked _ flips => SeenObserving toggles flips
  | stamped sample flips => SentAir.Seen ⟨sample, flips⟩ toggles
  | _ => True

theorem AirPhase.Sound.grow {phase : AirPhase} {toggles : List ObservingEdge} {nowNs later : Nat}
    {lastStart : Option Nat} (sound : phase.Sound toggles nowNs lastStart)
    (new : List ObservingEdge) (le : nowNs ≤ later) :
    phase.Sound (toggles ++ new) later lastStart := by
  cases phase with
  | clocked now => exact Nat.le_trans sound le
  | claimed c => exact ⟨sound.1, Nat.le_trans sound.2 le⟩
  | passed c => exact ⟨sound.1, Nat.le_trans sound.2.1 le, sound.2.2⟩
  | rechecked answer flips => exact SeenObserving.grow sound new
  | stamped sample flips => exact SentAir.Seen.grow sound new
  | pressed | observing | refusing | accepted | spawned | reading | read | leaving | paused
  | answered => trivial

/-- Only a holder of the latch relies on the stamp of the last start. -/
theorem AirPhase.Sound.restart {phase : AirPhase} {toggles : List ObservingEdge} {nowNs : Nat}
    {lastStart : Option Nat} (sound : phase.Sound toggles nowNs lastStart)
    (idle : phase.holds = false) (next : Option Nat) : phase.Sound toggles nowNs next := by
  cases phase with
  | clocked now => exact sound
  | pressed | observing | paused | answered => trivial
  | claimed | passed | rechecked | stamped | refusing | accepted | spawned | reading | read
  | leaving => cases idle

/-- The accepted requests: each claimed the latch behind its reading of the clock, and the readings
lie the interval apart. -/
structure AcceptedSound (accepted : List AirClaim) (nowNs : Nat) : Prop where
  claims : ∀ c ∈ accepted, c.now ≤ c.claimedNs ∧ c.claimedNs ≤ nowNs
  spaced : accepted.Pairwise fun a b => a.now + airScanMinInterval ≤ b.now

/-- A refusal stands for as long as no other request is accepted: it is over when the seconds it
named are. -/
def AirRefusal.Honest (r : AirRefusal) (accepted : List AirClaim) (lastStart : Option Nat) : Prop :=
  r.accepted ≤ accepted.length ∧ (r.accepted = accepted.length →
    ∀ now, r.atNs + r.retryInS * 1000000000 ≤ now → tooSoon lastStart now = none)

structure AirState.Sound (d : AirState) : Prop where
  loop : d.loop.Sound
  ordered : d.loop.toggles.Pairwise fun a b => a.tsUs < b.tsUs
  newest : ∀ e ∈ d.loop.toggles, e.tsUs ≤ d.loop.newestUs
  past : d.loop.newestUs ≤ d.clockUs
  latched : Latched AirPhase.holds d.running d.threads
  threads : ∀ p ∈ d.threads, p.Sound d.loop.toggles d.nowNs d.lastStart
  last : d.lastStart = d.accepted.getLast?.map AirClaim.now
  accepted : AcceptedSound d.accepted d.nowNs
  refusals : ∀ r ∈ d.refusals, r.Honest d.accepted d.lastStart
  sent : ∀ s ∈ d.sent, s.Seen d.loop.toggles

theorem tooSoon_eq_none {last now : Nat} :
    tooSoon (some last) now = none ↔ last + airScanMinInterval ≤ now := by
  unfold tooSoon airScanMinInterval
  rw [Option.bind_some]
  dsimp only
  split
  next apart =>
    refine iff_of_true rfl ?_
    omega
  next near =>
    refine iff_of_false (fun some_ => by cases some_) ?_
    omega

/-- A caller that waits as long as it was told is not too soon, counted from its refusal. -/
theorem tooSoon_waited {lastStart : Option Nat} {now atNs retryInS : Nat}
    (refused : tooSoon lastStart now = some retryInS) (read : now ≤ atNs)
    (stamped : ∀ last, lastStart = some last → last ≤ atNs) {later : Nat}
    (waited : atNs + retryInS * 1000000000 ≤ later) : tooSoon lastStart later = none := by
  cases lastStart with
  | none => rfl
  | some last =>
    have behind := stamped last rfl
    rw [tooSoon_eq_none]
    unfold tooSoon airScanMinInterval at refused
    rw [Option.bind_some] at refused
    dsimp only at refused
    unfold airScanMinInterval
    split at refused
    next => cases refused
    next near =>
      have seconds := Option.some.inj refused
      split at seconds
      next => omega
      next => omega

theorem AirState.sound_start (observing : Bool) (tier : ProbingTier) :
    (AirState.start observing tier).Sound := by
  have none_ {α : Type} {P : α → Prop} : ∀ a ∈ ([] : List α), P a := fun a mem => by cases mem
  exact ⟨LoopState.sound_start observing tier, List.Pairwise.nil, none_, Int.le_refl _, Latched.nil,
    none_, rfl, ⟨none_, List.Pairwise.nil⟩, none_, none_⟩

namespace AirState

theorem sound_of_mem_set {P : AirPhase → Prop} {threads : List AirPhase} {i : Nat} {q : AirPhase}
    (all : ∀ p ∈ threads, P p) (next : P q) : ∀ p ∈ threads.set i q, P p := by
  intro p mem
  rcases List.mem_or_eq_of_mem_set mem with old | rfl
  · exact all p old
  · exact next

theorem eq_or_other_of_mem_set {threads : List AirPhase} {i : Nat} {p q : AirPhase}
    (mem : p ∈ threads.set i q) : p = q ∨ ∃ j, i ≠ j ∧ threads[j]? = some p := by
  obtain ⟨j, there⟩ := List.mem_iff_getElem?.mp mem
  by_cases atI : i = j
  · subst atI
    obtain ⟨inside, -⟩ := List.getElem?_eq_some_iff.mp there
    rw [List.length_set] at inside
    rw [List.getElem?_set_self inside] at there
    exact .inl (Option.some.inj there).symm
  · rw [List.getElem?_set_ne atI] at there
    exact .inr ⟨j, atI, there⟩

/-- A thread that moves on within what it holds. -/
theorem Sound.setPhase {d : AirState} (sound : d.Sound) {i : Nat} {p q : AirPhase}
    (here : d.threads[i]? = some p) (same : q.holds = p.holds)
    (next : q.Sound d.loop.toggles d.nowNs d.lastStart) : (d.setPhase i q).Sound := by
  obtain ⟨loop, ordered, newest, past, latched, threads, last, accepted, refusals, sent⟩ := sound
  exact ⟨loop, ordered, newest, past, latched.move here same, sound_of_mem_set threads next, last,
    accepted, refusals, sent⟩

theorem Sound.claim {d : AirState} (sound : d.Sound) {i : Nat} {p q : AirPhase}
    (free : d.running = false) (here : d.threads[i]? = some p) (holds : q.holds = true)
    (next : q.Sound d.loop.toggles d.nowNs d.lastStart) :
    Sound { d.setPhase i q with running := true } := by
  obtain ⟨loop, ordered, newest, past, latched, threads, last, accepted, refusals, sent⟩ := sound
  rw [free] at latched
  exact ⟨loop, ordered, newest, past, latched.claim here holds, sound_of_mem_set threads next, last,
    accepted, refusals, sent⟩

theorem Sound.release {d : AirState} (sound : d.Sound) {i : Nat} {p q : AirPhase}
    (here : d.threads[i]? = some p) (holds : p.holds = true) (idle : q.holds = false)
    (next : q.Sound d.loop.toggles d.nowNs d.lastStart) :
    Sound { d.setPhase i q with running := false } := by
  obtain ⟨loop, ordered, newest, past, latched, threads, last, accepted, refusals, sent⟩ := sound
  exact ⟨loop, ordered, newest, past, latched.release here holds idle,
    sound_of_mem_set threads next, last, accepted, refusals, sent⟩

/-- The newest start lies behind nothing that is yet to come. -/
theorem Sound.last_le {d : AirState} (sound : d.Sound) {last : Nat} (stamp : d.lastStart = some last) :
    last ≤ d.nowNs := by
  rw [sound.last] at stamp
  obtain ⟨c, newest, rfl⟩ := Option.map_eq_some_iff.mp stamp
  have claims := sound.accepted.claims c (List.mem_of_getLast? newest)
  omega

/-- A request refused for being too soon is told how long to wait. -/
theorem Sound.refuse {d : AirState} (sound : d.Sound) {i : Nat} {c : AirClaim} {retryInS : Nat}
    (here : d.threads[i]? = some (.claimed c)) (refused : tooSoon d.lastStart c.now = some retryInS) :
    Sound { d.setPhase i (.refusing retryInS) with
      refusals := d.refusals ++ [⟨d.nowNs, retryInS, d.accepted.length⟩] } := by
  have claimed := sound.threads _ (List.mem_of_getElem? here)
  have read : c.now ≤ d.nowNs := Nat.le_trans claimed.1 claimed.2
  have stamped : ∀ last, d.lastStart = some last → last ≤ d.nowNs := fun last => sound.last_le
  obtain ⟨loop, ordered, newest, past, latched, threads, last, accepted, refusals, sent⟩ :=
    sound.setPhase (q := .refusing retryInS) here rfl trivial
  refine ⟨loop, ordered, newest, past, latched, threads, last, accepted, ?_, sent⟩
  intro r mem
  rcases List.mem_append.mp mem with old | new
  · exact refusals r old
  · rw [List.mem_singleton.mp new]
    exact ⟨Nat.le_refl _, fun _ later waited => tooSoon_waited refused read stamped waited⟩

/-- A request that passed the interval's check stamps the start. -/
theorem Sound.accept {d : AirState} (sound : d.Sound) {i : Nat} {c : AirClaim}
    (here : d.threads[i]? = some (.passed c)) :
    Sound { d.setPhase i .accepted with
      lastStart := some c.now
      accepted := d.accepted ++ [c] } := by
  obtain ⟨claimed, instant, apart⟩ := sound.threads _ (List.mem_of_getElem? here)
  obtain ⟨loop, ordered, newest, past, latched, threads, last, ⟨claims, spaced⟩, refusals, sent⟩ :=
    sound
  have behind : ∀ a ∈ d.accepted, a.now + airScanMinInterval ≤ c.now := by
    intro a mem
    cases newest_ : d.accepted.getLast? with
    | none =>
      rw [List.getLast?_eq_none_iff.mp newest_] at mem
      cases mem
    | some b =>
      rw [last, newest_, Option.map_some, tooSoon_eq_none] at apart
      obtain ⟨front, split⟩ := List.getLast?_eq_some_iff.mp newest_
      rw [split] at mem spaced
      rcases List.mem_append.mp mem with before | itself
      · have earlier := (List.pairwise_append.mp spaced).2.2 a before b (List.mem_singleton_self b)
        omega
      · rw [List.mem_singleton.mp itself]
        exact apart
  refine ⟨loop, ordered, newest, past, latched.move here rfl, ?_, ?_, ⟨?_, ?_⟩, ?_, sent⟩
  · intro p mem
    rcases eq_or_other_of_mem_set mem with rfl | ⟨j, apart, there⟩
    · trivial
    · have idle := latched.others here rfl there apart
      exact (threads p (List.mem_of_getElem? there)).restart idle _
  · rw [List.getLast?_concat]
    rfl
  · intro a mem
    rcases List.mem_append.mp mem with old | new
    · exact claims a old
    · rw [List.mem_singleton.mp new]
      exact ⟨claimed, instant⟩
  · refine List.pairwise_append.mpr ⟨spaced, List.pairwise_singleton _ _, ?_⟩
    intro a mem b new
    rw [List.mem_singleton.mp new]
    exact behind a mem
  · intro r mem
    have counted := (refusals r mem).1
    refine ⟨?_, fun all => ?_⟩
    · rw [List.length_append]
      omega
    · rw [List.length_append, List.length_singleton] at all
      omega

/-- A sample is stamped behind the look at the flag that its task made. -/
theorem Sound.stamp {d : AirState} (sound : d.Sound) {i flips : Nat} {answer : AirRead} {tsUs : Int}
    (here : d.threads[i]? = some (.rechecked answer flips)) (later : d.clockUs ≤ tsUs) :
    Sound { d.setPhase i (.stamped (buildAirSample tsUs answer) flips) with clockUs := tsUs } := by
  have seen : SeenObserving d.loop.toggles flips := sound.threads _ (List.mem_of_getElem? here)
  have stamp : (buildAirSample tsUs answer).tsUs = tsUs := by cases answer <;> rfl
  have before : ∀ e ∈ d.loop.toggles.take flips, e.tsUs ≤ (buildAirSample tsUs answer).tsUs := by
    intro e mem
    have newest := sound.newest e (List.mem_of_mem_take mem)
    have past := sound.past
    omega
  obtain ⟨loop, ordered, newest, past, latched, threads, last, accepted, refusals, sent⟩ :=
    sound.setPhase (q := .stamped (buildAirSample tsUs answer) flips) here rfl ⟨seen, before⟩
  exact ⟨loop, ordered, newest, Int.le_trans past later, latched, threads, last, accepted, refusals,
    sent⟩

theorem Sound.send {d : AirState} (sound : d.Sound) {i flips : Nat} {sample : AirSample}
    (here : d.threads[i]? = some (.stamped sample flips)) (through : Bool) :
    Sound { d.setPhase i .leaving with
      sent := d.sent ++ if through then [⟨sample, flips⟩] else [] } := by
  have seen : SentAir.Seen ⟨sample, flips⟩ d.loop.toggles :=
    sound.threads _ (List.mem_of_getElem? here)
  obtain ⟨loop, ordered, newest, past, latched, threads, last, accepted, refusals, sent⟩ :=
    sound.setPhase (q := .leaving) here rfl trivial
  refine ⟨loop, ordered, newest, past, latched, threads, last, accepted, refusals, ?_⟩
  intro s mem
  rcases List.mem_append.mp mem with old | new
  · exact sent s old
  · cases through with
    | false => cases new
    | true =>
      rw [List.mem_singleton.mp new]
      exact seen

theorem sound_threadStep {d d' : AirState} {i : Nat} {p : AirPhase} {label : AirStep}
    (here : d.threads[i]? = some p) (stepped : d.threadStep i p label = some d')
    (sound : d.Sound) : d'.Sound := by
  have phase := sound.threads p (List.mem_of_getElem? here)
  unfold threadStep at stepped
  split at stepped
  next =>
    cases stepped
    cases d.loop.shared.observing with
    | false => exact sound.setPhase here rfl trivial
    | true => exact sound.setPhase here rfl trivial
  next =>
    cases stepped
    exact sound.setPhase here rfl (Nat.le_refl _)
  next now _ =>
    cases stepped
    cases claimed : d.running with
    | true => exact sound.setPhase here rfl trivial
    | false => exact sound.claim claimed here rfl ⟨phase, Nat.le_refl _⟩
  next c _ =>
    split at stepped
    next retryInS refused =>
      cases stepped
      exact sound.refuse here refused
    next apart =>
      cases stepped
      exact sound.setPhase here rfl ⟨phase.1, phase.2, apart⟩
  next retryInS _ =>
    cases stepped
    exact sound.release here rfl rfl trivial
  next c _ =>
    cases stepped
    exact sound.accept here
  next =>
    cases stepped
    exact sound.setPhase here rfl trivial
  next =>
    cases stepped
    exact sound.setPhase here rfl trivial
  next =>
    cases stepped
    exact sound.setPhase here rfl trivial
  next answer _ =>
    cases stepped
    cases observing : d.loop.shared.observing with
    | false => exact sound.setPhase here rfl trivial
    | true =>
      exact sound.setPhase here rfl
        ⟨d.loop.length_flips_le, sound.loop.endsObserving_flips observing⟩
  next answer flips _ tsUs =>
    split at stepped
    next later =>
      cases stepped
      exact sound.stamp here later
    next => cases stepped
  next sample flips _ through =>
    cases stepped
    exact sound.send here through
  next =>
    cases stepped
    exact sound.setPhase here rfl trivial
  next =>
    cases stepped
    exact sound.setPhase here rfl trivial
  next =>
    cases stepped
    exact sound.setPhase here rfl trivial
  next =>
    cases stepped
    exact sound.setPhase here rfl trivial
  next =>
    cases stepped
    exact sound.release here rfl rfl trivial
  next => cases stepped

/-- What a step of the control path or a later reading of a clock leaves to the requests. -/
theorem Sound.grow {d : AirState} (sound : d.Sound) {loop : LoopState} {later : Int}
    (looped : loop.Sound) (new : List ObservingEdge) (toggles : loop.toggles = d.loop.toggles ++ new)
    (ordered : (d.loop.toggles ++ new).Pairwise fun a b => a.tsUs < b.tsUs)
    (newest : ∀ e ∈ d.loop.toggles ++ new, e.tsUs ≤ loop.newestUs) (past : loop.newestUs ≤ later)
    {nowNs : Nat} (le : d.nowNs ≤ nowNs) :
    Sound { d with loop := loop, clockUs := later, nowNs := nowNs } := by
  obtain ⟨-, -, -, -, latched, threads, last, ⟨claims, spaced⟩, refusals, sent⟩ := sound
  refine ⟨looped, ?_, ?_, past, latched, ?_, last, ⟨?_, spaced⟩, refusals, ?_⟩
  · rwa [toggles]
  · rwa [toggles]
  · intro p mem
    rw [toggles]
    exact (threads p mem).grow new le
  · intro c mem
    exact ⟨(claims c mem).1, Nat.le_trans (claims c mem).2 le⟩
  · intro s mem
    rw [toggles]
    exact (sent s mem).grow new

theorem sound_control {d : AirState} (sound : d.Sound) {label : LoopStep} {loop : LoopState}
    (stepped : d.loop.controlStep label = some loop) {later : Int} (le : d.clockUs ≤ later)
    (reading : ∀ tsUs, label.reading = some tsUs → tsUs = later) :
    Sound { d with loop := loop, clockUs := later } := by
  have looped := LoopState.sound_controlStep stepped sound.loop
  have ordered := sound.ordered
  have newest := sound.newest
  have past := sound.past
  rcases LoopState.controlStep_toggles stepped with
    ⟨same, kept⟩ | ⟨tsUs, b, read, behind, stamp, grown⟩
  · refine sound.grow looped [] (by rw [same, List.append_nil]) ?_ ?_ ?_ (Nat.le_refl _)
    · rwa [List.append_nil]
    · rwa [List.append_nil, kept]
    · rw [kept]
      exact Int.le_trans past le
  · have now := reading tsUs read
    refine sound.grow looped _ grown ?_ ?_ ?_ (Nat.le_refl _)
    · refine List.pairwise_append.mpr ⟨ordered, List.pairwise_singleton _ _, ?_⟩
      intro e mem f new
      rw [List.mem_singleton.mp new]
      exact Int.lt_of_le_of_lt (newest e mem) behind
    · intro e mem
      rw [stamp]
      rcases List.mem_append.mp mem with old | new
      · exact Int.le_trans (newest e old) (Int.le_of_lt behind)
      · rw [List.mem_singleton.mp new]
    · omega

theorem sound_step {d d' : AirState} {label : AirStep} (stepped : d.step label = some d')
    (sound : d.Sound) : d'.Sound := by
  have ofThread {i : Nat} (stepped : d.ofThread i label = some d') : d'.Sound := by
    obtain ⟨p, found, stepped⟩ := Option.bind_eq_some_iff.mp stepped
    exact sound_threadStep found stepped sound
  cases label with
  | control l =>
    simp only [step] at stepped
    split at stepped
    next read =>
      obtain ⟨loop, looped, rfl⟩ := Option.map_eq_some_iff.mp stepped
      refine sound_control sound looped (Int.le_refl _) ?_
      intro tsUs reading
      rw [read] at reading
      cases reading
    next tsUs read =>
      split at stepped
      next later =>
        obtain ⟨loop, looped, rfl⟩ := Option.map_eq_some_iff.mp stepped
        refine sound_control sound looped later ?_
        intro tsUs' reading
        rw [read] at reading
        exact (Option.some.inj reading).symm
      next => cases stepped
  | elapse ns =>
    cases stepped
    have ordered := sound.ordered
    have newest := sound.newest
    refine sound.grow sound.loop [] (List.append_nil _).symm ?_ ?_ sound.past (Nat.le_add_right _ ns)
    · rwa [List.append_nil]
    · rwa [List.append_nil]
  | press =>
    cases stepped
    obtain ⟨loop, ordered, newest, past, latched, threads, last, accepted, refusals, sent⟩ := sound
    refine ⟨loop, ordered, newest, past, latched.push rfl, ?_, last, accepted, refusals, sent⟩
    intro p mem
    rcases List.mem_append.mp mem with old | new
    · exact threads p old
    · rw [List.mem_singleton.mp new]
      trivial
  | readFlag | readClock | claim | check | release | stampStart | spawn | begin | finish | recheck
  | stamp | send | fail | leave => exact ofThread stepped

end AirState

/-- What on-demand scans promise: one read at a time, claims the interval apart, refusals whose
seconds are enough, a latch that only a task or a request at work holds, and no sample inside a
pause. -/
structure AirState.Kept (d : AirState) : Prop where
  single : ∀ i j : Nat, d.threads[i]? = some .reading → d.threads[j]? = some .reading → i = j
  spaced : d.accepted.Pairwise fun a b => a.claimedNs + airScanMinInterval ≤ b.claimedNs
  honest : ∀ r ∈ d.refusals, r.accepted = d.accepted.length →
    ∀ now, r.atNs + r.retryInS * 1000000000 ≤ now → tooSoon d.lastStart now = none
  latch : d.running = true ↔ ∃ p ∈ d.threads, p.holds = true
  outside : ∀ s ∈ d.sent, ∀ i, ¬ InsidePause d.loop.toggles i s.sample.tsUs

end NetObserver
