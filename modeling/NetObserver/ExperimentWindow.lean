import Mathlib.Data.List.Sort
import Std.Data.String.ToInt
import NetObserver.ControlPath
import NetObserver.Runs

/-! The experiment window: a passive stretch an operator opens, and the task that closes it. -/

namespace NetObserver

def experimentMaxMinutes : Nat := 60

def experimentId (startUs : Int) : String := "experiment-" ++ startUs.repr

def experimentRunningMessage (localInstant : Int → String) (id : String) (endsAtUs : Int) : String :=
  "experiment " ++ id ++ " still running (ends at " ++ localInstant endsAtUs ++ ")"

inductive ExperimentState where
  | running (endsAtUs : Int)
  | finished

abbrev Experiments := List (String × ExperimentState)

namespace Experiments

def running? : Experiments → Option (String × Int)
  | [] => none
  | (id, .running endsAtUs) :: _ => some (id, endsAtUs)
  | (_, .finished) :: rest => running? rest

def insert (m : Experiments) (id : String) (s : ExperimentState) : Experiments :=
  (id, s) :: List.filter (fun entry => entry.1 != id) m

theorem not_mem_of_running?_none {m : Experiments} (none : m.running? = none) (id : String)
    (endsAtUs : Int) : (id, ExperimentState.running endsAtUs) ∉ m := by
  induction m with
  | nil => exact List.not_mem_nil
  | cons entry rest ih =>
    rcases entry with ⟨name, _ | _⟩
    · cases none
    · intro mem
      rcases List.mem_cons.mp mem with same | later
      · cases same
      · exact ih none later

end Experiments

/-- A tier switch that is not the window's own bracket. -/
def ProbingEdge.byOperator (e : ProbingEdge) : Bool :=
  !(e.reason == .experiment || e.reason == .experimentEnd)

/-- The `probing_edge` rows inside the window, `ORDER BY ts_us`. -/
def windowEdges (table : List ProbingEdge) (startUs endUs : Int) : List ProbingEdge :=
  (table.filter fun row => decide (startUs ≤ row.tsUs ∧ row.tsUs ≤ endUs)).insertionSort
    fun a b => a.tsUs ≤ b.tsUs

inductive TierRestore where
  | restored
  | operatorMoved (atUs : Int)
  | notPassive (found : ProbingTier)
  | unverified (why : String)

structure ExperimentOpen where
  startUs : Int
  requestedMinutes : Nat
  tierBefore : ProbingTier
  peerUid : Nat

inductive EndPhase where
  | asleep
  | ended (endUs : Int)
  | read (endUs : Int) (edges : Except String (List ProbingEdge))
  | closed

/-- The end task of one window; `since` counts the edges published up to its opening one. -/
structure EndTask where
  id : String
  opened : ExperimentOpen
  since : Nat
  phase : EndPhase

/-- A window as its closing edge left it, with every edge published since its opening one. -/
structure WindowClosing where
  opened : ExperimentOpen
  endUs : Int
  edges : Except String (List ProbingEdge)
  since : List ProbingEdge
  tierAfter : ProbingTier
  restore : TierRestore

/-- The state the control connections and the end tasks share, the probing edges' rows still to
be written, and the history of the edges and of the windows closed. -/
structure ControlState where
  shared : Shared
  published : List ProbingEdge
  pending : List ProbingEdge
  table : List ProbingEdge
  experiments : Experiments
  tasks : List EndTask
  closings : List WindowClosing

namespace ControlState

def start (tier : ProbingTier) (table : List ProbingEdge) : ControlState :=
  ⟨.start tier, [], [], table, [], [], []⟩

def publish (d : ControlState) (shared : Shared) (sw : Switched) : ControlState :=
  { d with
    shared := shared
    published := d.published ++ [sw.edge]
    pending := d.pending ++ [sw.edge] }

def setProbing (d : ControlState) (tier : ProbingTier) (peerUid : Nat) (tsUs : Int) :
    ControlState :=
  match NetObserver.setProbing d.shared tier peerUid tsUs with
  | (shared, .ok (some sw)) => d.publish shared sw
  | _ => d

/-- The part of `start_experiment` under the registry lock, and the task it spawns. -/
def startExperiment (localInstant : Int → String) (d : ControlState) (minutes peerUid : Nat)
    (tsUs : Int) : ControlState × Except String EndTask :=
  if minutes = 0 ∨ experimentMaxMinutes < minutes then
    (d, .error ("experiment length must be 1..=60 minutes, not " ++ minutes.repr))
  else
    match d.experiments.running? with
    | some (id, endsAtUs) => (d, .error (experimentRunningMessage localInstant id endsAtUs))
    | none =>
      match openingSwitch d.shared peerUid tsUs with
      | (_, .error message) => (d, .error message)
      | (_, .ok none) => (d, .error "experiment could not open: no opening edge")
      | (shared, .ok (some sw)) =>
        let startUs := sw.edge.tsUs
        let id := experimentId startUs
        let task : EndTask :=
          ⟨id, ⟨startUs, minutes, sw.was, peerUid⟩, d.published.length + 1, .asleep⟩
        ({ d.publish shared sw with
            experiments := d.experiments.insert id (.running (startUs + minutes * 60000000))
            tasks := d.tasks ++ [task] }, .ok task)

def setPhase (d : ControlState) (k : Nat) (t : EndTask) (phase : EndPhase) : ControlState :=
  { d with tasks := d.tasks.set k { t with phase := phase } }

/-- The closing edge: back to the tier found only if the rows read vouch that nobody moved it. -/
def close (d : ControlState) (k : Nat) (t : EndTask) (endUs : Int)
    (edges : Except String (List ProbingEdge)) (tsUs : Int) : ControlState :=
  let rows := edges.toOption.getD []
  let edgesRead := edges.isOk
  let operatorMovedAt := (rows.find? ProbingEdge.byOperator).map ProbingEdge.tsUs
  let mayRestore := operatorMovedAt.isNone && edgesRead
  let closing := closingSwitch d.shared mayRestore t.opened.tierBefore t.opened.peerUid tsUs
  let ended := d.setPhase k t .closed
  match closing with
  | (shared, .ok (some sw)) =>
    let restore : TierRestore :=
      match operatorMovedAt with
      | some atUs => .operatorMoved atUs
      | none =>
        if sw.was ≠ .passive then .notPassive sw.was
        else if edgesRead then .restored
        else .unverified "the window's boundary rows could not be read"
    { ended.publish shared sw with
      closings := d.closings ++
        [⟨t.opened, endUs, edges, d.published.drop t.since, sw.edge.tier, restore⟩] }
  | _ =>
    { ended with
      closings := d.closings ++
        [⟨t.opened, endUs, edges, d.published.drop t.since, d.shared.probing,
          .unverified "no closing edge"⟩] }

end ControlState

/-- A control step, a row reaching the store or lost on its way, or a step of an end task. -/
inductive ControlStep where
  | setObserving (b : Bool) (peerUid : Nat) (tsUs : Int)
  | setProbing (tier : ProbingTier) (peerUid : Nat) (tsUs : Int)
  | startExperiment (minutes peerUid : Nat) (tsUs : Int)
  | write (row : Nat)
  | lose (row : Nat)
  | endWindow (task : Nat) (endUs : Int)
  | readEdges (task : Nat) (fault : Option String)
  | close (task : Nat) (tsUs : Int)
  | file (task : Nat)

namespace ControlState

def step (localInstant : Int → String) (d : ControlState) : ControlStep → Option ControlState
  | .setObserving b peerUid tsUs =>
    some { d with shared := (NetObserver.setObserving d.shared b peerUid tsUs).1 }
  | .setProbing tier peerUid tsUs => some (d.setProbing tier peerUid tsUs)
  | .startExperiment minutes peerUid tsUs =>
    some (d.startExperiment localInstant minutes peerUid tsUs).1
  | .write i => do
    let row ← d.pending[i]?
    some { d with pending := d.pending.eraseIdx i, table := d.table ++ [row] }
  | .lose i => do
    let _ ← d.pending[i]?
    some { d with pending := d.pending.eraseIdx i }
  | .endWindow k endUs => do
    let t ← d.tasks[k]?
    match t.phase with
    | .asleep => some (d.setPhase k t (.ended endUs))
    | _ => none
  | .readEdges k fault => do
    let t ← d.tasks[k]?
    match t.phase with
    | .ended endUs =>
      let edges := match fault with
        | some why => .error why
        | none => .ok (windowEdges d.table t.opened.startUs endUs)
      some (d.setPhase k t (.read endUs edges))
    | _ => none
  | .close k tsUs => do
    let t ← d.tasks[k]?
    match t.phase with
    | .read endUs edges => some (d.close k t endUs edges tsUs)
    | _ => none
  | .file k => do
    let t ← d.tasks[k]?
    match t.phase with
    | .closed =>
      some { d with
        experiments := d.experiments.insert t.id .finished
        tasks := d.tasks.eraseIdx k }
    | _ => none

end ControlState

def lastTier (found : ProbingTier) (edges : List ProbingEdge) : ProbingTier :=
  (edges.getLast?.map ProbingEdge.tier).getD found

theorem lastTier_snoc (found : ProbingTier) (edges : List ProbingEdge) (e : ProbingEdge) :
    lastTier found (edges ++ [e]) = e.tier := by
  simp [lastTier]

/-- A switch that moves the tier, or must be marked, publishes an edge to the tier it sets. -/
theorem switchProbing_edge (s : Shared) (target : ProbingTier → Except String ProbingTier)
    (peerUid : Option Nat) (reason : ProbingReason) (policy : EdgePolicy) (tsUs : Int)
    {tier : ProbingTier} (aim : target s.probing = .ok tier)
    (marked : tier ≠ s.probing ∨ policy = .always) :
    ∃ shared, switchProbing s target peerUid reason policy tsUs =
      (shared, .ok (some ⟨⟨tsUs, tier, peerUid, reason⟩, s.probing⟩)) ∧ shared.probing = tier := by
  rcases switchProbing_cases s target peerUid reason policy tsUs with
    ⟨answer, silent, eq⟩ | ⟨same, eq⟩ | ⟨other, moved, _, eq⟩
  · exfalso
    unfold switchProbing at eq
    rw [aim] at eq
    by_cases same : s.probing = tier ∧ policy = .onChange
    · rcases marked with moves | always
      · exact moves same.1.symm
      · rw [always] at same
        cases same.2
    · simp only [if_neg same, Prod.mk.injEq] at eq
      exact silent _ eq.2.symm
  · have here : s.probing = tier := by
      rw [aim] at same
      exact (Except.ok.inj same).symm
    exact ⟨s, here ▸ eq, here⟩
  · have here : other = tier := by
      rw [aim] at moved
      exact (Except.ok.inj moved).symm
    subst here
    exact ⟨_, eq, rfl⟩

/-- Since its window opened, only operators have switched the tier. -/
structure EndTask.Tracks (t : EndTask) (published : List ProbingEdge) (probing : ProbingTier) :
    Prop where
  since : t.since ≤ published.length
  operators : ∀ e ∈ published.drop t.since, e.reason = .control
  tier : probing = lastTier .passive (published.drop t.since)

theorem EndTask.Tracks.snoc {t : EndTask} {published : List ProbingEdge} {probing : ProbingTier}
    (tracks : t.Tracks published probing) {e : ProbingEdge} (operator : e.reason = .control) :
    t.Tracks (published ++ [e]) e.tier := by
  have behind : (published ++ [e]).drop t.since = published.drop t.since ++ [e] :=
    List.drop_append_of_le_length tracks.since
  refine ⟨?_, ?_, ?_⟩
  · have less := tracks.since
    rw [List.length_append]
    omega
  · intro x mem
    rw [behind] at mem
    rcases List.mem_append.mp mem with old | new
    · exact tracks.operators x old
    · rw [List.mem_singleton.mp new]
      exact operator
  · rw [behind, lastTier_snoc]

def WindowClosing.edgesVouch (c : WindowClosing) : Prop :=
  ∃ rows, c.edges = .ok rows ∧ ∀ e ∈ rows, e.byOperator = false

/-- What a closing edge did, from the switches since the opening one and the rows read. -/
structure WindowClosing.Sound (c : WindowClosing) : Prop where
  operators : ∀ e ∈ c.since, e.reason = .control
  kept : lastTier .passive c.since = .active ∨ ¬ c.edgesVouch →
    c.tierAfter = lastTier .passive c.since
  restored : lastTier .passive c.since = .passive → c.edgesVouch →
    c.tierAfter = c.opened.tierBefore

/-- At most one window runs, the registry knows it, and its task tracks the tier until it has
closed it. -/
structure ControlState.Sound (d : ControlState) : Prop where
  single : d.tasks = [] ∨ ∃ t, d.tasks = [t] ∧
    (∃ endsAtUs, (t.id, .running endsAtUs) ∈ d.experiments) ∧
    (t.phase ≠ .closed → t.Tracks d.published d.shared.probing)
  closings : ∀ c ∈ d.closings, c.Sound

namespace ControlState

theorem sound_start (tier : ProbingTier) (table : List ProbingEdge) : (start tier table).Sound :=
  ⟨.inl rfl, fun _ mem => by cases mem⟩

theorem Sound.task {d : ControlState} (sound : d.Sound) {k : Nat} {t : EndTask}
    (task : d.tasks[k]? = some t) : k = 0 ∧ d.tasks = [t] ∧
      (∃ endsAtUs, (t.id, .running endsAtUs) ∈ d.experiments) ∧
      (t.phase ≠ .closed → t.Tracks d.published d.shared.probing) := by
  rcases sound.single with none | ⟨u, only, registered, tracks⟩
  · rw [none] at task
    cases task
  · rw [only] at task
    cases k with
    | zero =>
      obtain rfl : u = t := by simpa using task
      exact ⟨rfl, only, registered, tracks⟩
    | succ k => simp at task

theorem sound_setProbing {d : ControlState} (sound : d.Sound) (tier : ProbingTier) (peerUid : Nat)
    (tsUs : Int) : (d.setProbing tier peerUid tsUs).Sound := by
  by_cases same : d.shared.probing = tier
  · have idle : d.setProbing tier peerUid tsUs = d := by
      simp [setProbing, NetObserver.setProbing, switchProbing, same]
    rw [idle]
    exact sound
  · obtain ⟨shared, eq, probing⟩ := switchProbing_edge d.shared (fun _ => .ok tier) (some peerUid)
      .control .onChange tsUs rfl (.inl (Ne.symm same))
    have moved : d.setProbing tier peerUid tsUs =
        d.publish shared ⟨⟨tsUs, tier, some peerUid, .control⟩, d.shared.probing⟩ := by
      simp only [setProbing, NetObserver.setProbing]
      rw [eq]
    rw [moved]
    refine ⟨?_, sound.closings⟩
    rcases sound.single with none | ⟨t, only, registered, tracks⟩
    · exact .inl none
    · refine .inr ⟨t, only, registered, fun opened => ?_⟩
      have after := (tracks opened).snoc (e := ⟨tsUs, tier, some peerUid, .control⟩) rfl
      change t.Tracks (d.published ++ [_]) shared.probing
      rw [probing]
      exact after

theorem sound_startExperiment {d : ControlState} (localInstant : Int → String) (sound : d.Sound)
    (minutes peerUid : Nat) (tsUs : Int) :
    (d.startExperiment localInstant minutes peerUid tsUs).1.Sound := by
  unfold startExperiment
  split
  next => exact sound
  next =>
    split
    next => exact sound
    next idle =>
      have free : d.tasks = [] := by
        rcases sound.single with none | ⟨t, _, ⟨endsAtUs, registered⟩, _⟩
        · exact none
        · exact absurd registered (Experiments.not_mem_of_running?_none idle t.id endsAtUs)
      cases observing : d.shared.observing with
      | false =>
        simp only [openingSwitch, switchProbing, observing]
        exact sound
      | true =>
        obtain ⟨shared, eq, probing⟩ := switchProbing_edge d.shared
          (fun _ => if d.shared.observing then .ok .passive
            else .error "observation is paused; resume before starting an experiment")
          (some peerUid) .experiment .always tsUs (if_pos observing) (.inr rfl)
        simp only [openingSwitch]
        rw [eq]
        refine ⟨.inr ⟨_, by rw [free]; rfl, ⟨_, List.mem_cons_self⟩, fun _ => ?_⟩, sound.closings⟩
        have none : (d.published ++ [(⟨tsUs, .passive, some peerUid, .experiment⟩ : ProbingEdge)]).drop
            (d.published.length + 1) = [] :=
          List.drop_eq_nil_of_le (by simp)
        refine ⟨by simp [publish], ?_, ?_⟩
        · intro e mem
          change e ∈ (d.published ++ [_]).drop (d.published.length + 1) at mem
          rw [none] at mem
          cases mem
        · change shared.probing = lastTier .passive ((d.published ++ [_]).drop (d.published.length + 1))
          rw [none]
          exact probing

theorem mayRestore_iff (edges : Except String (List ProbingEdge)) :
    ((((edges.toOption.getD []).find? ProbingEdge.byOperator).map ProbingEdge.tsUs).isNone &&
      edges.isOk) = true ↔ ∃ rows, edges = .ok rows ∧ ∀ e ∈ rows, e.byOperator = false := by
  cases edges with
  | error why => simp [Except.isOk, Except.toBool]
  | ok rows => simp [Except.isOk, Except.toBool, Except.toOption]

theorem sound_close {d : ControlState} (sound : d.Sound) {k : Nat} {t : EndTask} {endUs : Int}
    {edges : Except String (List ProbingEdge)} (task : d.tasks[k]? = some t)
    (read : t.phase = .read endUs edges) (tsUs : Int) : (d.close k t endUs edges tsUs).Sound := by
  obtain ⟨rfl, only, registered, tracks⟩ := sound.task task
  have tracked := tracks (by rw [read]; exact fun same => by cases same)
  have after : (d.setPhase 0 t .closed).tasks = [{ t with phase := .closed }] := by
    simp [setPhase, only]
  have vouches := mayRestore_iff edges
  generalize may : ((((edges.toOption.getD []).find? ProbingEdge.byOperator).map
    ProbingEdge.tsUs).isNone && edges.isOk) = mayRestore at vouches
  obtain ⟨shared, eq, -⟩ := switchProbing_edge d.shared
    (fun was => .ok (if was = .passive ∧ mayRestore then t.opened.tierBefore else was))
    (some t.opened.peerUid) .experimentEnd .always tsUs rfl (.inr rfl)
  simp only [close, may, closingSwitch]
  rw [eq]
  refine ⟨.inr ⟨_, after, registered, fun opened => absurd rfl opened⟩, ?_⟩
  intro c mem
  rcases List.mem_append.mp mem with old | new
  · exact sound.closings c old
  · rw [List.mem_singleton.mp new]
    refine ⟨tracked.operators, ?_, ?_⟩
    · intro kept
      change (if d.shared.probing = .passive ∧ mayRestore = true then t.opened.tierBefore
        else d.shared.probing) = _
      rw [tracked.tier]
      refine if_neg ?_
      rintro ⟨passive, may⟩
      rcases kept with active | silent
      · change lastTier .passive (d.published.drop t.since) = .active at active
        rw [active] at passive
        cases passive
      · exact silent (vouches.mp may)
    · intro passive vouch
      change (if d.shared.probing = .passive ∧ mayRestore = true then t.opened.tierBefore
        else d.shared.probing) = _
      rw [tracked.tier]
      exact if_pos ⟨passive, vouches.mpr vouch⟩

theorem sound_setPhase {d : ControlState} (sound : d.Sound) {k : Nat} {t : EndTask}
    (task : d.tasks[k]? = some t) (opened : t.phase ≠ .closed) (phase : EndPhase) :
    (d.setPhase k t phase).Sound := by
  obtain ⟨rfl, only, registered, tracks⟩ := sound.task task
  have after : (d.setPhase 0 t phase).tasks = [{ t with phase := phase }] := by
    simp [setPhase, only]
  obtain ⟨since, operators, tier⟩ := tracks opened
  exact ⟨.inr ⟨_, after, registered, fun _ => ⟨since, operators, tier⟩⟩, sound.closings⟩

theorem sound_file {d : ControlState} (sound : d.Sound) {k : Nat} {t : EndTask}
    (task : d.tasks[k]? = some t) (experiments : Experiments) :
    { d with experiments := experiments, tasks := d.tasks.eraseIdx k }.Sound := by
  obtain ⟨rfl, only, _, _⟩ := sound.task task
  exact ⟨.inl (by simp [only]), sound.closings⟩

theorem sound_step {localInstant : Int → String} {d d' : ControlState} {label : ControlStep}
    (stepped : d.step localInstant label = some d') (sound : d.Sound) : d'.Sound := by
  cases label with
  | setObserving b peerUid tsUs =>
    cases stepped
    have probing : (NetObserver.setObserving d.shared b peerUid tsUs).1.probing =
        d.shared.probing := by
      unfold NetObserver.setObserving
      split
      · rfl
      · cases b <;> rfl
    refine ⟨?_, sound.closings⟩
    simp only [probing]
    exact sound.single
  | setProbing tier peerUid tsUs =>
    cases stepped
    exact sound_setProbing sound tier peerUid tsUs
  | startExperiment minutes peerUid tsUs =>
    cases stepped
    exact sound_startExperiment localInstant sound minutes peerUid tsUs
  | write i =>
    obtain ⟨row, _, stepped⟩ := Option.bind_eq_some_iff.mp stepped
    cases stepped
    exact ⟨sound.single, sound.closings⟩
  | lose i =>
    obtain ⟨row, _, stepped⟩ := Option.bind_eq_some_iff.mp stepped
    cases stepped
    exact ⟨sound.single, sound.closings⟩
  | endWindow k endUs =>
    obtain ⟨t, task, stepped⟩ := Option.bind_eq_some_iff.mp stepped
    cases phase : t.phase with
    | asleep =>
      simp only [phase, Option.some.injEq] at stepped
      exact stepped ▸ sound_setPhase sound task (by simp [phase]) _
    | ended | read | closed => simp [phase] at stepped
  | readEdges k fault =>
    obtain ⟨t, task, stepped⟩ := Option.bind_eq_some_iff.mp stepped
    cases phase : t.phase with
    | ended endUs =>
      simp only [phase, Option.some.injEq] at stepped
      exact stepped ▸ sound_setPhase sound task (by simp [phase]) _
    | asleep | read | closed => simp [phase] at stepped
  | close k tsUs =>
    obtain ⟨t, task, stepped⟩ := Option.bind_eq_some_iff.mp stepped
    cases phase : t.phase with
    | read endUs edges =>
      simp only [phase, Option.some.injEq] at stepped
      exact stepped ▸ sound_close sound task phase tsUs
    | asleep | ended | closed => simp [phase] at stepped
  | file k =>
    obtain ⟨t, task, stepped⟩ := Option.bind_eq_some_iff.mp stepped
    cases phase : t.phase with
    | closed =>
      simp only [phase, Option.some.injEq] at stepped
      exact stepped ▸ sound_file sound task _
    | asleep | ended | read => simp [phase] at stepped

end ControlState

namespace WindowClosing

def moves (c : WindowClosing) : List ProbingEdge := c.since.filter fun e => e.reason == .control

/-- The tier a window must leave behind it: the operator's last choice, else the tier
from before it whenever the boundary rows could be read. -/
structure ChoiceSurvives (c : WindowClosing) : Prop where
  moved : ∀ last, c.moves.getLast? = some last → c.tierAfter = last.tier
  unmoved : c.moves = [] → c.edges.isOk = true → c.tierAfter = c.opened.tierBefore

/-- The rows read show an operator's switch where one must be seen, and none where there was
none. -/
structure SwitchesSeen (c : WindowClosing) : Prop where
  moved : ∀ last, c.moves.getLast? = some last → last.tier = .active ∨
    c.opened.tierBefore = .passive ∨ ∀ rows, c.edges = .ok rows → ∃ e ∈ rows, e.byOperator = true
  unmoved : c.moves = [] → c.opened.tierBefore = .passive ∨
    ∀ rows, c.edges = .ok rows → ∀ e ∈ rows, e.byOperator = false

theorem Sound.moves_eq {c : WindowClosing} (sound : c.Sound) : c.moves = c.since := by
  refine List.filter_eq_self.mpr fun e mem => ?_
  rw [sound.operators e mem]
  rfl

theorem not_edgesVouch_iff {c : WindowClosing} : ¬ c.edgesVouch ↔
    ∀ rows, c.edges = .ok rows → ∃ e ∈ rows, e.byOperator = true := by
  unfold edgesVouch
  push Not
  simp

theorem Sound.moved_iff {c : WindowClosing} (sound : c.Sound) {last : ProbingEdge}
    (found : c.moves.getLast? = some last) : c.tierAfter = last.tier ↔
      last.tier = .active ∨ c.opened.tierBefore = .passive ∨
        ∀ rows, c.edges = .ok rows → ∃ e ∈ rows, e.byOperator = true := by
  rw [sound.moves_eq] at found
  have left : lastTier .passive c.since = last.tier := by simp [lastTier, found]
  rw [← not_edgesVouch_iff]
  by_cases vouch : c.edgesVouch
  · cases tier : last.tier with
    | active =>
      have kept := sound.kept (.inl (left.trans tier))
      exact iff_of_true (kept.trans (left.trans tier)) (.inl rfl)
    | passive =>
      have restored := sound.restored (left.trans tier) vouch
      simp [restored, vouch]
  · have kept := sound.kept (.inr vouch)
    exact iff_of_true (kept.trans left) (.inr (.inr vouch))

theorem Sound.unmoved_iff {c : WindowClosing} (sound : c.Sound) (none : c.moves = []) :
    (c.edges.isOk = true → c.tierAfter = c.opened.tierBefore) ↔
      (c.opened.tierBefore = .passive ∨
        ∀ rows, c.edges = .ok rows → ∀ e ∈ rows, e.byOperator = false) := by
  rw [sound.moves_eq] at none
  have left : lastTier .passive c.since = .passive := by rw [none]; rfl
  cases read : c.edges with
  | error why => simp [Except.isOk, Except.toBool]
  | ok rows =>
    by_cases quiet : ∀ e ∈ rows, e.byOperator = false
    · have restored := sound.restored left ⟨rows, read, quiet⟩
      refine iff_of_true (fun _ => restored) (.inr ?_)
      intro others same
      cases same
      exact quiet
    · have kept := sound.kept (.inr fun vouch => by
        obtain ⟨others, same, silent⟩ := vouch
        rw [read] at same
        cases same
        exact quiet silent)
      rw [kept, left]
      constructor
      · intro restored
        exact .inl (restored rfl).symm
      · rintro (passive | vouch)
        · exact fun _ => passive.symm
        · exact absurd (vouch rows rfl) quiet

theorem Sound.choiceSurvives_iff {c : WindowClosing} (sound : c.Sound) :
    c.ChoiceSurvives ↔ c.SwitchesSeen := by
  constructor
  · rintro ⟨moved, unmoved⟩
    exact ⟨fun last found => (sound.moved_iff found).mp (moved last found),
      fun none => (sound.unmoved_iff none).mp (unmoved none)⟩
  · rintro ⟨moved, unmoved⟩
    exact ⟨fun last found => (sound.moved_iff found).mpr (moved last found),
      fun none => (sound.unmoved_iff none).mpr (unmoved none)⟩

end WindowClosing

/-- Over every interleaving, a window's closing edge leaves the operator's choice in force, or
else the tier from before the window, exactly when the boundary rows it read tell them apart. -/
theorem operator_choice_survives_iff {localInstant : Int → String} {tier : ProbingTier}
    {table : List ProbingEdge} {labels : List ControlStep} {d : ControlState}
    (ran : Runs.runSteps (ControlState.step localInstant) (.start tier table) labels = some d) :
    ∀ c ∈ d.closings, c.ChoiceSurvives ↔ c.SwitchesSeen := by
  have sound := Runs.runSteps_invariant (fun _ _ _ => ControlState.sound_step) ran
    (ControlState.sound_start tier table)
  exact fun c mem => (sound.closings c mem).choiceSurvives_iff

/-- An operator who goes active and back to passive once the boundary rows are read. -/
def passiveAgainAfterTheRead : List ControlStep :=
  [.startExperiment 5 501 100, .write 0, .endWindow 0 200, .readEdges 0 none,
    .setProbing .active 501 210, .setProbing .passive 501 220, .close 0 230]

def restoredOverOperator : WindowClosing where
  opened := ⟨100, 5, .active, 501⟩
  endUs := 200
  edges := .ok [⟨100, .passive, some 501, .experiment⟩]
  since := [⟨210, .active, some 501, .control⟩, ⟨220, .passive, some 501, .control⟩]
  tierAfter := .active
  restore := .restored

theorem operator_choice_overridden :
    (Runs.runSteps (ControlState.step Int.repr) (.start .active [])
        passiveAgainAfterTheRead).map ControlState.closings = some [restoredOverOperator] ∧
      ¬ restoredOverOperator.ChoiceSurvives := by
  refine ⟨rfl, ?_⟩
  rintro ⟨moved, -⟩
  cases moved ⟨220, .passive, some 501, .control⟩ rfl

theorem operator_choice_survives_passiveAgain :
    restoredOverOperator.ChoiceSurvives ↔ restoredOverOperator.SwitchesSeen :=
  @operator_choice_survives_iff Int.repr .active [] passiveAgainAfterTheRead _ rfl
    restoredOverOperator (List.mem_singleton_self _)

end NetObserver
