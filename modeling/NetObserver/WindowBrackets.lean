import NetObserver.EdgeRecord
import NetObserver.WindowProtocol

/-! Experiment windows over every interleaving of the control threads: they follow the protocol,
so they are exclusive and their edges bracket them. -/

namespace NetObserver

open Timeline

def ControlThread.role (t : ControlThread) : WindowRole :=
  match t.task, t.phase with
  | .control (.startExperiment _) _, .registryHeld => .holding
  | .control (.startExperiment _) _, .flipped tr => .opening tr.edge.tsUs
  | .control (.startExperiment _) _, .sent tr => .opening tr.edge.tsUs
  | .control (.startExperiment _) _, .written (some tr) => .opening tr.edge.tsUs
  | .finishExperiment id opened, .arrived => .running id opened.startUs
  | .finishExperiment id opened, .flipped _ => .closing id opened.startUs
  | .finishExperiment id opened, .sent _ => .closing id opened.startUs
  | .finishExperiment id opened, .written _ => .closing id opened.startUs
  | .finishExperiment _ opened, .answered _ => .closed opened.startUs
  | _, _ => .outside

namespace ControlPlane

def roles (threads : List ControlThread) (k : Nat) : WindowRole :=
  (threads[k]?.map ControlThread.role).getD .outside

def windows (d : ControlPlane) : Windows :=
  ⟨roles d.threads, d.registryLock, d.experiments, d.brackets, d.clockUs⟩

theorem roles_of_thread {threads : List ControlThread} {k : Nat} {t : ControlThread}
    (thread : threads[k]? = some t) : roles threads k = t.role := by
  simp [roles, thread]

theorem roles_set {threads : List ControlThread} {k : Nat} {t u : ControlThread}
    (thread : threads[k]? = some t) :
    roles (threads.set k u) = Function.update (roles threads) k u.role := by
  have bound : k < threads.length := (List.getElem?_eq_some_iff.mp thread).1
  funext j
  rcases eq_or_ne j k with rfl | apart
  · rw [Function.update_self]
    simp [roles, bound]
  · rw [Function.update_of_ne apart]
    simp [roles, List.getElem?_set_ne (Ne.symm apart)]

theorem roles_snoc (threads : List ControlThread) (u : ControlThread) :
    roles (threads ++ [u]) = Function.update (roles threads) threads.length u.role := by
  funext j
  rcases eq_or_ne j threads.length with rfl | apart
  · rw [Function.update_self]
    simp [roles]
  · rw [Function.update_of_ne apart]
    rcases Nat.lt_or_ge j threads.length with before | past
    · simp [roles, List.getElem?_append_left before]
    · have beyond : (threads ++ [u]).length ≤ j := by
        simp only [List.length_append, List.length_singleton]
        omega
      simp [roles, List.getElem?_eq_none past, List.getElem?_eq_none beyond]

theorem roles_length (threads : List ControlThread) : roles threads threads.length = .outside := by
  simp [roles]

theorem roles_set_same {threads : List ControlThread} {k : Nat} {t u : ControlThread}
    (thread : threads[k]? = some t) (same : u.role = t.role) :
    roles (threads.set k u) = roles threads := by
  rw [roles_set thread, same, ← roles_of_thread thread, Function.update_eq_self]

/-- The end task's section always stamps its closing edge. -/
theorem finish_stamps (s : Shared) (id : String) (opened : ExperimentOpen) (tsUs : Int)
    (mayRestore : Bool) :
    ∃ tr, (lockedSection s (.finishExperiment id opened) tsUs mayRestore).2 = .ok (some tr) := by
  simp [lockedSection, switchedAnswer, closingSwitch, switchProbing, Except.map]

theorem releaseRegistry_kept {d : ControlPlane} {k : Nat}
    (idle : (roles d.threads k).holds = false) {j : Nat} (holds : (roles d.threads j).holds = true)
    (locked : d.registryLock = some j) : (d.releaseRegistry k).registryLock = some j := by
  have apart : j ≠ k := by
    rintro rfl
    rw [idle] at holds
    cases holds
  simp [releaseRegistry, locked, apart]

theorem step_of_role {d d' : ControlPlane} {k : Nat} {t u : ControlThread} {r : WindowRole}
    (thread : d.threads[k]? = some t) (threads : d'.threads = d.threads.set k u)
    (after : u.role = r)
    (step : Windows.Step d.windows ⟨Function.update d.windows.roles k r, d'.registryLock,
      d'.experiments, d'.brackets, d'.clockUs⟩) : Windows.Step d.windows d'.windows := by
  have same : roles d'.threads = Function.update (roles d.threads) k r := by
    rw [threads, roles_set thread, after]
  rw [show d'.windows = ⟨Function.update d.windows.roles k r, d'.registryLock, d'.experiments,
    d'.brackets, d'.clockUs⟩ from congrArg (Windows.mk · _ _ _ _) same]
  exact step

/-- A move that keeps the thread's role, the registry and the brackets. -/
theorem quiet_step {d d' : ControlPlane} {k : Nat} {t u : ControlThread}
    (thread : d.threads[k]? = some t) (threads : d'.threads = d.threads.set k u)
    (same : u.role = t.role)
    (lock : ∀ j, (roles d.threads j).holds = true → d.registryLock = some j →
      d'.registryLock = some j)
    (experiments : d'.experiments = d.experiments) (brackets : d'.brackets = d.brackets)
    (clock : d.clockUs ≤ d'.clockUs) : Windows.Step d.windows d'.windows := by
  refine .quiet ?_ lock experiments brackets clock
  change roles d'.threads = roles d.threads
  rw [threads, roles_set_same thread same]

theorem unstamped_windows {d : ControlPlane} {k : Nat} {t : ControlThread} {tsUs : Int}
    {mayRestore : Bool} {answer : Except String (Option Transition)} {phase : ThreadPhase}
    (thread : d.threads[k]? = some t) (entering : Entering t)
    (section_ : lockedSection d.shared t.task tsUs mayRestore = (d.shared, answer))
    (phased : (∃ message, answer = .error message ∧ phase = .refused message) ∨
      answer = .ok none ∧ phase = unstampedPhase t.task) :
    Windows.Step d.windows ((d.setPhase k t phase).releaseRegistry k).windows := by
  rcases t with ⟨task, before⟩
  have role := roles_of_thread thread
  rcases entering with ⟨arrived, other⟩ | ⟨held, minutes, peerUid, started⟩
  · cases arrived
    match task, thread, role, section_, phased, other with
    | .control (.startExperiment m) u, _, _, _, _, other => exact absurd rfl (other m u)
    | .finishExperiment id opened, _, _, section_, phased, _ =>
      obtain ⟨tr, stamped⟩ := finish_stamps d.shared id opened tsUs mayRestore
      rw [show lockedSection d.shared (.finishExperiment id opened) tsUs mayRestore =
        (d.shared, answer) from section_] at stamped
      change answer = .ok (some tr) at stamped
      rcases phased with ⟨message, refused, _⟩ | ⟨unstamped, _⟩
      · rw [stamped] at refused
        cases refused
      · rw [stamped] at unstamped
        cases unstamped
    | .control (.setObserving b) u, thread, role, _, phased, _
    | .control (.setProbing tier) u, thread, role, _, phased, _ =>
      have idle : (roles d.threads k).holds = false := by rw [role]; rfl
      refine quiet_step thread rfl ?_ (fun j => releaseRegistry_kept (d := d) idle) rfl rfl
        (Int.le_refl _)
      rcases phased with ⟨_, _, rfl⟩ | ⟨_, rfl⟩
      · rfl
      · rfl
  · cases held
    cases started
    refine step_of_role thread rfl ?_ (.drop role _)
    rcases phased with ⟨_, _, rfl⟩ | ⟨_, rfl⟩
    · rfl
    · rfl

theorem flip_windows {d : ControlPlane} {k : Nat} {t : ControlThread} {tsUs : Int}
    {mayRestore : Bool} {shared : Shared} {tr : Transition}
    (thread : d.threads[k]? = some t) (entering : Entering t) (later : d.clockUs < tsUs)
    (section_ : lockedSection d.shared t.task tsUs mayRestore = (shared, .ok (some tr))) :
    Windows.Step d.windows { d.setPhase k t (.flipped tr) with
      clockUs := tsUs
      shared := shared
      snapshotLock := some (k, tr.edge)
      brackets := d.brackets ++ (bracketOf t.task tsUs).toList : ControlPlane }.windows := by
  rcases t with ⟨task, before⟩
  have role := roles_of_thread thread
  have stamp : tr.edge.tsUs = tsUs := by
    rcases lockedSection_stamped section_ with ⟨_, _, _, _, rfl, _⟩ | ⟨sw, rfl, switches⟩
    · rfl
    · exact switches.stamp
  rcases entering with ⟨arrived, other⟩ | ⟨held, minutes, peerUid, started⟩
  · cases arrived
    match task, thread, role, other with
    | .control (.startExperiment m) u, _, _, other => exact absurd rfl (other m u)
    | .finishExperiment id opened, thread, role, _ =>
      exact step_of_role thread rfl rfl (.closes role later)
    | .control (.setObserving b) u, thread, role, _
    | .control (.setProbing tier) u, thread, role, _ =>
      exact quiet_step thread rfl rfl (fun _ _ locked => locked) rfl (List.append_nil _)
        (Int.le_of_lt later)
  · cases held
    cases started
    exact step_of_role thread rfl (congrArg WindowRole.opening stamp) (.opens role later)

/-- Every move of a thread is a step of the windows' protocol. -/
theorem moves_windows {d d' : ControlPlane} {k : Nat} {t : ControlThread}
    (thread : d.threads[k]? = some t) (moved : d.Moves k t d') :
    Windows.Step d.windows d'.windows := by
  have role := roles_of_thread thread
  cases moved with
  | unstamped entering free section_ phased => exact unstamped_windows thread entering section_ phased
  | flip entering free later section_ => exact flip_windows thread entering later section_
  | refuse message arrived started =>
    refine quiet_step thread rfl ?_ (fun _ _ locked => locked) rfl rfl (Int.le_refl _)
    simp [ControlThread.role, arrived, started]
  | hold arrived started free idle =>
    refine step_of_role thread rfl ?_ (.hold (role.trans ?_) free idle)
    · simp [ControlThread.role, started]
    · simp [ControlThread.role, arrived, started]
  | @send tr flipped =>
    refine quiet_step thread rfl ?_ (fun _ _ locked => locked) rfl rfl (Int.le_refl _)
    rcases t with ⟨⟨_ | _ | _, _⟩ | _, phase⟩ <;> cases flipped <;> rfl
  | @handOver tr sent =>
    refine quiet_step thread rfl ?_ (fun _ _ locked => locked) rfl rfl (Int.le_refl _)
    rcases t with ⟨⟨_ | _ | _, _⟩ | _, phase⟩ <;> cases sent <;> rfl
  | @openWindow minutes peerUid sw written started =>
    have opening : roles d.threads k = .opening sw.edge.tsUs := by
      rw [role]
      simp [ControlThread.role, written, started, Transition.edge, BoundaryEdge.tsUs]
    have outside : ControlThread.role { t with phase := .answered (some (.switched sw)) } =
        .outside := by
      simp [ControlThread.role, started]
    have step := @Windows.Step.spawns d.windows k d.threads.length sw.edge.tsUs
      (sw.edge.tsUs + minutes * 60000000) (experimentId sw.edge.tsUs) opening
      (roles_length d.threads) (ControlPlane.releaseRegistry (d.setPhase k t (.answered (some (.switched sw)))) k).registryLock
    have after : (d.openWindow k t minutes peerUid sw).windows.roles =
        Function.update (Function.update d.windows.roles k .outside) d.threads.length
          (.running (experimentId sw.edge.tsUs) sw.edge.tsUs) := by
      change roles (d.threads.set k { t with phase := .answered (some (.switched sw)) } ++ [_]) = _
      rw [roles_snoc, roles_set thread, outside, List.length_set]
      rfl
    have whole : (d.openWindow k t minutes peerUid sw).windows = _ :=
      congrArg (Windows.mk · _ _ _ _) after
    rw [whole]
    exact step
  | @fileWindow id opened tr written started free =>
    refine step_of_role (r := .closed opened.startUs) thread rfl ?_
      (.files (role.trans ?_) free)
    · simp [ControlThread.role, started]
    · simp [ControlThread.role, written, started]

theorem step_windows {localInstant : Int → String} {d d' : ControlPlane} {label : PlaneStep}
    (stepped : d.step localInstant label = some d') : Windows.Step d.windows d'.windows := by
  rcases step_cases stepped with ⟨cmd, peerUid, rfl⟩ | ⟨event, rfl⟩ | ⟨k, t, _, _, _, thread, moved⟩
  · refine .quiet ?_ (fun _ _ locked => locked) rfl rfl (Int.le_refl _)
    change roles (d.threads ++ [_]) = roles d.threads
    have arrived : ControlThread.role ⟨.control cmd peerUid, .arrived⟩ = .outside := by
      cases cmd <;> rfl
    rw [roles_snoc, arrived, ← roles_length d.threads, Function.update_eq_self]
  · exact .quiet rfl (fun _ _ locked => locked) rfl rfl (Int.le_refl _)
  · exact moves_windows thread moved

end ControlPlane

/-- The bracket of an experiment an edge is: its opening one or its closing one. -/
def BoundaryEdge.bracket? (e : BoundaryEdge) : Option (Bool × Int) :=
  match e.probing? with
  | none => none
  | some p =>
    match p.reason with
    | .experiment => some (true, p.tsUs)
    | .experimentEnd => some (false, p.tsUs)
    | _ => none

def bracketMark : Episodes.Event Int Int → Bool × Int
  | .opens _ tsUs => (true, tsUs)
  | .closes _ tsUs => (false, tsUs)

/-- An edge that opens a window finds the daemon observing. -/
def OpensObserved (earlier : List BoundaryEdge) (e : BoundaryEdge) : Prop :=
  ∀ p, e = .probing p → p.reason = .experiment → flagAfter true (observingEdges earlier) = true

/-- What the windows keep to at every step. -/
structure WindowsKept (found : ProbingTier) (d : ControlPlane) : Prop extends
    EdgeRecord found d where
  exclusive : Windows.Exclusive (ControlPlane.roles d.threads) d.registryLock d.experiments
  bracketed : Windows.Bracketed (ControlPlane.roles d.threads) d.brackets d.clockUs
  observed : EachAfter OpensObserved d.edges
  marks : d.edges.filterMap BoundaryEdge.bracket? = d.brackets.map bracketMark

theorem windowsKept_start (tier : ProbingTier) (bootedUs : Int) :
    WindowsKept tier (.start tier bootedUs) := by
  have outside (k : Nat) : ControlPlane.roles (ControlPlane.start tier bootedUs).threads k =
      .outside := by
    simp [ControlPlane.roles, ControlPlane.start]
  refine ⟨edgeRecord_start tier bootedUs, ⟨?_, ?_, ?_, ?_, ?_, ?_⟩, ⟨⟨none, .done _, ?_, ?_⟩, ?_, ?_, ?_⟩,
    eachAfter_nil _, rfl⟩
  · intro k holds
    rw [outside] at holds
    cases holds
  · intro j k holds
    rw [outside] at holds
    cases holds
  · intro j k unfiled
    rw [outside] at unfiled
    exact absurd rfl unfiled
  · intro k id unfiled
    rw [outside] at unfiled
    cases unfiled
  · intro id endsAtUs mem
    cases mem
  · exact List.nodup_nil
  · intro k startUs awaiting
    rw [outside] at awaiting
    cases awaiting
  · intro _
    rfl
  · intro startUs mem
    cases mem
  · exact List.nodup_nil
  · intro k startUs ended
    rw [outside] at ended
    cases ended

/-- The edge a section stamps is marked as the bracket its task asks for. -/
theorem bracket_of_section {s shared : Shared} {task : ControlTask} {tsUs : Int}
    {mayRestore : Bool} {tr : Transition}
    (section_ : ControlPlane.lockedSection s task tsUs mayRestore = (shared, .ok (some tr))) :
    tr.edge.bracket? = (ControlPlane.bracketOf task tsUs).map bracketMark := by
  rcases ControlPlane.lockedSection_stamped section_ with
    ⟨b, u, rfl, _, rfl, _⟩ | ⟨sw, rfl, switches⟩
  · rfl
  · have stamp := switches.stamp
    rcases switches.reason with
      ⟨reason, ⟨_, _, rfl⟩, _⟩ | ⟨reason, ⟨_, _, rfl⟩, _⟩ | ⟨reason, _, _, rfl⟩
    all_goals
      simp [Transition.edge, BoundaryEdge.bracket?, BoundaryEdge.probing?, reason, stamp,
        ControlPlane.bracketOf, bracketMark]

theorem opensObserved_of_section {s shared : Shared} {task : ControlTask} {tsUs : Int}
    {mayRestore : Bool} {tr : Transition} {earlier : List BoundaryEdge}
    (flag : s.observing = flagAfter true (observingEdges earlier))
    (section_ : ControlPlane.lockedSection s task tsUs mayRestore = (shared, .ok (some tr))) :
    OpensObserved earlier tr.edge := by
  intro p edge experiment
  rw [← flag]
  rcases ControlPlane.lockedSection_stamped section_ with
    ⟨b, u, rfl, _, rfl, _⟩ | ⟨sw, rfl, switches⟩
  · cases edge
  · cases edge
    rcases switches.reason with ⟨control, _⟩ | ⟨_, _, observing⟩ | ⟨ended, _⟩
    · rw [control] at experiment
      cases experiment
    · exact observing
    · rw [ended] at experiment
      cases experiment

theorem windowsKept_step {localInstant : Int → String} {tier : ProbingTier} {d d' : ControlPlane}
    {label : PlaneStep} (stepped : d.step localInstant label = some d')
    (inv : WindowsKept tier d) : WindowsKept tier d' := by
  have followed := ControlPlane.step_windows stepped
  have record := edgeRecord_step stepped inv.toEdgeRecord
  have exclusive := Windows.exclusive_step followed inv.exclusive
  have bracketed := Windows.bracketed_step followed inv.exclusive inv.bracketed
  suffices edges : EachAfter OpensObserved d'.edges ∧
      d'.edges.filterMap BoundaryEdge.bracket? = d'.brackets.map bracketMark from
    ⟨record, exclusive, bracketed, edges.1, edges.2⟩
  rcases ControlPlane.step_cases stepped with
    ⟨cmd, peerUid, rfl⟩ | ⟨event, rfl⟩ | ⟨k, t, _, _, _, thread, moved⟩
  · exact ⟨inv.observed, inv.marks⟩
  · rw [d.edges_publish event]
    exact ⟨inv.observed, inv.marks⟩
  · rcases ControlPlane.moves_frame inv.toEdgesTracked thread moved with
      ⟨_, edges, brackets⟩ | ⟨tsUs, mayRestore, tr, _, section_, edges, brackets⟩
    · rw [edges, brackets]
      exact ⟨inv.observed, inv.marks⟩
    · rw [edges, brackets, List.filterMap_append, List.map_append, inv.marks]
      refine ⟨inv.observed.snoc (opensObserved_of_section inv.moves.flag section_), ?_⟩
      congr 1
      have mark := bracket_of_section section_
      cases bracket : ControlPlane.bracketOf t.task tsUs with
      | none => simp [mark, bracket]
      | some b => simp [mark, bracket]

theorem windowsKept_run {localInstant : Int → String} {tier : ProbingTier} {bootedUs : Int}
    {labels : List PlaneStep} {d : ControlPlane}
    (ran : Runs.runSteps (ControlPlane.step localInstant) (.start tier bootedUs) labels = some d) :
    WindowsKept tier d :=
  Runs.runSteps_invariant (fun _ _ _ => windowsKept_step) ran (windowsKept_start tier bootedUs)

def ExperimentState.isRunning : ExperimentState → Bool
  | .running _ => true
  | .finished => false

/-- The registry never shows two windows running. -/
theorem one_running {tier : ProbingTier} {d : ControlPlane} (inv : WindowsKept tier d) :
    (d.experiments.filter fun entry => entry.2.isRunning).length ≤ 1 := by
  have same {a b : String × ExperimentState}
      (memA : a ∈ d.experiments.filter fun entry => entry.2.isRunning)
      (memB : b ∈ d.experiments.filter fun entry => entry.2.isRunning) : a.1 = b.1 := by
    have owner {entry : String × ExperimentState}
        (mem : entry ∈ d.experiments.filter fun entry => entry.2.isRunning) :
        ∃ k, (ControlPlane.roles d.threads k).unfiled? = some entry.1 := by
      obtain ⟨mem, running⟩ := List.mem_filter.mp mem
      rcases entry with ⟨id, endsAtUs | _⟩
      · exact inv.exclusive.owned id endsAtUs mem
      · cases running
    obtain ⟨j, mine⟩ := owner memA
    obtain ⟨k, other⟩ := owner memB
    have one := inv.exclusive.one j k (by simp [mine]) (by simp [other])
    subst one
    rw [mine] at other
    exact Option.some.inj other
  have keys : ((d.experiments.filter fun entry => entry.2.isRunning).map Prod.fst).Nodup :=
    inv.exclusive.keys.sublist (List.filter_sublist.map Prod.fst)
  generalize d.experiments.filter (fun entry => entry.2.isRunning) = shown at same keys ⊢
  match shown with
  | [] | [_] => simp
  | a :: b :: rest =>
    have first : a.1 = b.1 := same (by simp) (by simp)
    simp [first] at keys

/-- A thread past the point where it may still be refused. -/
def ThreadPhase.committed : ThreadPhase → Bool
  | .flipped _ | .sent _ | .written _ | .answered _ => true
  | .arrived | .registryHeld | .refused _ => false

namespace ControlPlane

/-- A move commits its thread, or leaves no trace but in the thread and the registry's lock. -/
theorem Moves.committed {d d' : ControlPlane} {k : Nat} {t : ControlThread}
    (thread : d.threads[k]? = some t) (moved : d.Moves k t d') :
    (∃ u, d'.threads[k]? = some u ∧ u.phase.committed = true) ∨
      t.phase.committed = false ∧ d'.experiments = d.experiments ∧ d'.shared = d.shared ∧
        d'.bus = d.bus ∧ d'.edges = d.edges ∧ d'.handed = d.handed := by
  have bound : k < d.threads.length := (List.getElem?_eq_some_iff.mp thread).1
  have self (phase : ThreadPhase) :
      (d.threads.set k { t with phase := phase })[k]? = some { t with phase := phase } :=
    List.getElem?_set_self bound
  have early (entering : Entering t) : t.phase.committed = false := by
    rcases entering with ⟨arrived, _⟩ | ⟨held, _⟩
    · rw [arrived]; rfl
    · rw [held]; rfl
  cases moved with
  | refuse message arrived | hold arrived =>
    exact .inr ⟨by rw [arrived]; rfl, rfl, rfl, rfl, rfl, rfl⟩
  | unstamped entering free section_ phased =>
    exact .inr ⟨early entering, rfl, rfl, rfl, rfl, rfl⟩
  | flip => exact .inl ⟨_, self _, rfl⟩
  | send => exact .inl ⟨_, self _, rfl⟩
  | handOver sent =>
    refine .inl ⟨_, self _, ?_⟩
    rcases t with ⟨⟨_ | _ | _, _⟩ | _, _⟩ <;> rfl
  | @openWindow minutes peerUid sw =>
    have kept := self (.answered (some (.switched sw)))
    have inside := (List.getElem?_eq_some_iff.mp kept).1
    exact .inl ⟨_, (List.getElem?_append_left inside).trans kept, rfl⟩
  | fileWindow => exact .inl ⟨_, self _, rfl⟩

theorem step_committed {localInstant : Int → String} {d d' : ControlPlane} {label : PlaneStep}
    {k : Nat} (stepped : d.step localInstant label = some d')
    (committed : ∃ t, d.threads[k]? = some t ∧ t.phase.committed = true) :
    ∃ t, d'.threads[k]? = some t ∧ t.phase.committed = true := by
  obtain ⟨t, thread, past⟩ := committed
  rcases step_cases stepped with ⟨cmd, peerUid, rfl⟩ | ⟨event, rfl⟩ | ⟨j, u, _, _, _, found, moved⟩
  · have bound : k < d.threads.length := (List.getElem?_eq_some_iff.mp thread).1
    exact ⟨t, (List.getElem?_append_left bound).trans thread, past⟩
  · exact ⟨t, thread, past⟩
  · by_cases same : k = j
    · subst same
      rw [thread] at found
      cases found
      rcases moved.committed thread with after | ⟨early, _⟩
      · exact after
      · rw [early] at past
        cases past
    · exact ⟨t, moved.others same thread, past⟩

/-- The steps of a request that is refused in the end left no trace. -/
theorem refused_step {localInstant : Int → String} {d d' e : ControlPlane} {k : Nat} {tsUs : Int}
    {mayRestore : Bool} {labels : List PlaneStep} {t : ControlThread} {message : String}
    (stepped : d.step localInstant (.advance k tsUs mayRestore) = some d')
    (ran : Runs.runSteps (step localInstant) d' labels = some e)
    (thread : e.threads[k]? = some t) (refused : t.phase = .refused message) :
    d'.experiments = d.experiments ∧ d'.shared = d.shared ∧ d'.bus = d.bus ∧
      d'.edges = d.edges ∧ d'.handed = d.handed := by
  obtain ⟨u, found, moved⟩ := Option.bind_eq_some_iff.mp stepped
  rcases (advance_moves moved).committed found with after | ⟨_, kept⟩
  · obtain ⟨t', thread', committed⟩ := Runs.runSteps_invariant
      (P := fun d : ControlPlane => ∃ t, d.threads[k]? = some t ∧ t.phase.committed = true)
      (fun _ _ _ => step_committed) ran after
    rw [thread] at thread'
    cases thread'
    rw [refused] at committed
    cases committed
  · exact kept

/-- An end task that is due closes its window as soon as the snapshot lock is free. -/
theorem finish_closes {localInstant : Int → String} {d : ControlPlane} {k : Nat} {id : String}
    {opened : ExperimentOpen} {tsUs : Int}
    (thread : d.threads[k]? = some ⟨.finishExperiment id opened, .arrived⟩)
    (free : d.snapshotLock = none) (later : d.clockUs < tsUs) (mayRestore : Bool) :
    ∃ d', d.step localInstant (.advance k tsUs mayRestore) = some d' ∧
      d'.brackets = d.brackets ++ [.closes opened.startUs tsUs] := by
  obtain ⟨tr, stamped⟩ := finish_stamps d.shared id opened tsUs mayRestore
  have pair : lockedSection d.shared (.finishExperiment id opened) tsUs mayRestore =
      ((lockedSection d.shared (.finishExperiment id opened) tsUs mayRestore).1,
        .ok (some tr)) := Prod.ext rfl stamped
  have entered : d.step localInstant (.advance k tsUs mayRestore) =
      d.enter k ⟨.finishExperiment id opened, .arrived⟩ tsUs mayRestore := by
    simp [step, thread, advance]
  rw [entered, enter, if_neg (by simp [free]), if_neg (by omega), pair]
  exact ⟨_, rfl, rfl⟩

end ControlPlane

/-- What holds of the windows in every state the threads reach. -/
structure WindowsBracketed (localInstant : Int → String) (d : ControlPlane) : Prop where
  one : (d.experiments.filter fun entry => entry.2.isRunning).length ≤ 1
  observed : EachAfter OpensObserved d.edges
  order : Rising BoundaryEdge.tsUs d.edges
  sent : d.sentEdges <+: d.edges
  marks : d.edges.filterMap BoundaryEdge.bracket? = d.brackets.map bracketMark
  alternate : ∃ pending, Episodes.Alternates none d.brackets pending ∧
    ((∀ k, (ControlPlane.roles d.threads k).awaiting? = none) → pending = none)
  opened : (Episodes.openedKeys d.brackets).Nodup
  closed : (Episodes.closedKeys d.brackets).Nodup
  filed : ∀ (k : Nat) (id : String) (opened : ExperimentOpen) (tr : Option Transition),
    d.threads[k]? = some ⟨.finishExperiment id opened, .answered tr⟩ →
    opened.startUs ∈ Episodes.closedKeys d.brackets
  due : ∀ (k : Nat) (id : String) (opened : ExperimentOpen) (tsUs : Int) (mayRestore : Bool),
    d.threads[k]? = some ⟨.finishExperiment id opened, .arrived⟩ → d.snapshotLock = none →
    d.clockUs < tsUs → opened.startUs ∉ Episodes.closedKeys d.brackets ∧
      ∃ d', d.step localInstant (.advance k tsUs mayRestore) = some d' ∧
        d'.brackets = d.brackets ++ [.closes opened.startUs tsUs]

/-- Over every interleaving of the requests and the end tasks one window runs at a time, its two
edges enclose no other window's, and a request refused in the end left no trace on its way. -/
theorem windows_bracketed {localInstant : Int → String} {tier : ProbingTier} {bootedUs : Int}
    {labels : List PlaneStep} {d : ControlPlane}
    (ran : Runs.runSteps (ControlPlane.step localInstant) (.start tier bootedUs) labels = some d) :
    WindowsBracketed localInstant d ∧
      ∀ before k tsUs mayRestore after e f t message,
        labels = before ++ .advance k tsUs mayRestore :: after →
        Runs.runSteps (ControlPlane.step localInstant) (.start tier bootedUs) before = some e →
        e.step localInstant (.advance k tsUs mayRestore) = some f →
        d.threads[k]? = some t → t.phase = .refused message →
        f.experiments = e.experiments ∧ f.shared = e.shared ∧ f.bus = e.bus ∧
          f.edges = e.edges ∧ f.handed = e.handed := by
  have inv := windowsKept_run ran
  obtain ⟨pending, alternates, awaited, settled⟩ := inv.bracketed.pending
  have keys := alternates.keys
  simp only [Option.toList_none, List.map_nil, List.nil_append] at keys
  have distinct := inv.bracketed.distinct
  rw [keys] at distinct
  refine ⟨⟨one_running inv, inv.observed, inv.moves.order, List.prefix_append _ _, inv.marks,
    ⟨pending, alternates, settled⟩, inv.bracketed.distinct, distinct.of_append_left, ?_, ?_⟩, ?_⟩
  · intro k id opened tr thread
    exact inv.bracketed.ended k opened.startUs
      (by rw [ControlPlane.roles_of_thread thread]; rfl)
  · intro k id opened tsUs mayRestore thread free later
    have role := ControlPlane.roles_of_thread thread
    have mine := awaited k opened.startUs (by rw [role]; rfl)
    subst mine
    refine ⟨?_, ControlPlane.finish_closes thread free later mayRestore⟩
    intro ended
    exact (List.nodup_append.mp distinct).2.2 _ ended opened.startUs (by simp) rfl
  · intro before k tsUs mayRestore after e f t message split ran' stepped thread refused
    subst split
    obtain ⟨mid, first, rest⟩ := Runs.runSteps_append_eq_some.mp ran
    rw [ran'] at first
    cases first
    obtain ⟨next, stepped', last⟩ := Runs.runSteps_cons_eq_some.mp rest
    rw [stepped] at stepped'
    cases stepped'
    exact ControlPlane.refused_step stepped last thread refused

/-- A window is opened and closed while a second request is refused. -/
def windowBesideARefusal : List PlaneStep :=
  [.request (.startExperiment 5) 501, .advance 0 0 false, .request (.startExperiment 5) 502,
    .advance 0 10 false, .advance 0 0 false, .advance 0 0 false, .advance 0 0 false,
    .advance 1 0 false, .advance 2 20 true, .advance 2 0 false, .advance 2 0 false,
    .advance 2 0 false]

theorem windows_bracketed_besideARefusal :
    ∃ d, Runs.runSteps (ControlPlane.step Int.repr) (.start .active 0) windowBesideARefusal =
        some d ∧ WindowsBracketed Int.repr d :=
  ⟨_, rfl, (@windows_bracketed Int.repr .active 0 windowBesideARefusal _ rfl).1⟩

end NetObserver
