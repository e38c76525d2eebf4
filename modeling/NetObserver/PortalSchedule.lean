import NetObserver.Runs
import NetObserver.Verdicts

/-! When the portal probe runs: the series behind a trigger, the watch behind a portal. -/

namespace NetObserver

/-- The pauses before each attempt of a series, in seconds. -/
def seriesDelays : List Nat := [3, 10, 30, 60]

def watchInterval : Nat := 60

def watchSkipLimit : Nat := 10

inductive PortalPhase where
  | idle
  | series (iface : String) (attempt : Nat)
  | watch (iface : String) (skips : Nat)
deriving DecidableEq

structure Scheduler where
  phase : PortalPhase
deriving DecidableEq

inductive ProbeEvent where
  | trigger (iface : String)
  | attempt (verdict : PortalVerdict)
deriving DecidableEq

namespace Scheduler

def new : Scheduler := ⟨.idle⟩

/-- A trigger always restarts the series; the pause before the first attempt comes with it. -/
def onTrigger (_ : Scheduler) (iface : String) : Scheduler × Option Nat :=
  (⟨.series iface 0⟩, seriesDelays[0]?)

def target (s : Scheduler) : Option String :=
  match s.phase with
  | .idle => none
  | .series iface _ => some iface
  | .watch iface _ => some iface

/-- One attempt is over; the pause before the next one, none when the scheduler goes idle. -/
def onAttemptDone (s : Scheduler) (verdict : PortalVerdict) : Scheduler × Option Nat :=
  match s.phase, verdict with
  | _, .ok => (⟨.idle⟩, none)
  | .series iface _, .portal => (⟨.watch iface 0⟩, some watchInterval)
  | .watch iface _, .portal => (⟨.watch iface 0⟩, some watchInterval)
  | .series iface attempt, .skip =>
    match seriesDelays[attempt + 1]? with
    | some delay => (⟨.series iface (attempt + 1)⟩, some delay)
    | none => (⟨.idle⟩, none)
  | .watch iface skips, .skip =>
    if watchSkipLimit ≤ skips + 1 then (⟨.idle⟩, none)
    else (⟨.watch iface (skips + 1)⟩, some watchInterval)
  | .idle, _ => (⟨.idle⟩, none)

/-- An attempt is only made while there is a target. -/
def step (s : Scheduler) : ProbeEvent → Option Scheduler
  | .trigger iface => some (s.onTrigger iface).1
  | .attempt verdict => if s.target.isSome then some (s.onAttemptDone verdict).1 else none

end Scheduler

def isSkip (e : ProbeEvent) : Bool := e == .attempt .skip

/-- The newest verdict that is a measurement is a portal's, and fewer skips than end a watch have
followed it, with whatever triggers between them. -/
def PortalStands (events : List ProbeEvent) : Prop :=
  ∃ before after, events = before ++ .attempt .portal :: after ∧
    (∀ verdict, .attempt verdict ∈ after → verdict = .skip) ∧
    after.countP isSkip < watchSkipLimit

/-- The newest trigger is newer than every measurement, and the skips since it spent a series. -/
def SeriesSpent (events : List ProbeEvent) : Prop :=
  ∃ before iface skips, events = before ++ .trigger iface :: skips ∧
    (∀ e ∈ skips, isSkip e = true) ∧ seriesDelays.length ≤ skips.length

/-- What the phase remembers of the events: the skips since what it began with. -/
def PortalPhase.Remembers (events : List ProbeEvent) : PortalPhase → Prop
  | .idle => PortalStands events → SeriesSpent events
  | .series iface attempt => attempt < seriesDelays.length ∧ ∃ before skips,
      events = before ++ .trigger iface :: skips ∧ (∀ e ∈ skips, isSkip e = true) ∧
      skips.length = attempt
  | .watch _ skipped => skipped < watchSkipLimit ∧ ∃ before skips,
      events = before ++ .attempt .portal :: skips ∧ (∀ e ∈ skips, isSkip e = true) ∧
      skips.length = skipped

/-- The last element that fails a property is found in one way only. -/
theorem last_failing_unique {α : Type*} {p : α → Prop} {before before' after after' : List α}
    {x x' : α} (same : before ++ x :: after = before' ++ x' :: after') (fails : ¬ p x)
    (fails' : ¬ p x') (hold : ∀ e ∈ after, p e) (hold' : ∀ e ∈ after', p e) :
    x = x' ∧ after = after' := by
  rcases List.append_eq_append_iff.mp same with ⟨more, rfl, rest⟩ | ⟨more, rfl, rest⟩
  · cases more with
    | nil =>
      obtain ⟨rfl, rfl⟩ := List.cons.inj rest
      exact ⟨rfl, rfl⟩
    | cons y more =>
      obtain ⟨rfl, rfl⟩ := List.cons.inj rest
      exact absurd (hold x' (by simp)) fails'
  · cases more with
    | nil =>
      obtain ⟨rfl, rfl⟩ := List.cons.inj rest
      exact ⟨rfl, rfl⟩
    | cons y more =>
      obtain ⟨rfl, rfl⟩ := List.cons.inj rest
      exact absurd (hold' x (by simp)) fails


theorem target_isSome_iff (s : Scheduler) : s.target.isSome = true ↔ s.phase ≠ .idle := by
  unfold Scheduler.target
  split <;> simp_all

/-- A clean answer is newer than every portal before it. -/
theorem not_portalStands_ok (events : List ProbeEvent) :
    ¬ PortalStands (events ++ [.attempt .ok]) := by
  rintro ⟨before, after, same, unmeasured, -⟩
  rcases List.eq_nil_or_concat' after with rfl | ⟨init, x, rfl⟩
  · obtain ⟨-, clash⟩ := List.append_inj' same rfl
    simp at clash
  · rw [← List.cons_append, ← List.append_assoc] at same
    obtain ⟨-, newest⟩ := List.append_inj' same rfl
    obtain rfl := List.singleton_inj.mp newest
    have clean := unmeasured .ok (by simp)
    cases clean

/-- A watch the skips have spent is over by the limit itself. -/
theorem not_portalStands_of_limit {before skips : List ProbeEvent}
    (skipped : ∀ e ∈ skips, isSkip e = true) (limit : watchSkipLimit ≤ skips.length) :
    ¬ PortalStands (before ++ .attempt .portal :: skips) := by
  rintro ⟨before', after, same, unmeasured, few⟩
  let dead : ProbeEvent → Prop := fun e => ∀ verdict, e = .attempt verdict → verdict = .skip
  have measures : ¬ dead (.attempt .portal) := fun dull => by cases dull _ rfl
  have deadSkips : ∀ e ∈ skips, dead e := by
    rintro e listed verdict rfl
    simpa [isSkip] using skipped _ listed
  have deadAfter : ∀ e ∈ after, dead e := by
    rintro e listed verdict rfl
    exact unmeasured verdict listed
  obtain ⟨-, rfl⟩ := last_failing_unique same measures measures deadSkips deadAfter
  rw [List.countP_eq_length.mpr skipped] at few
  omega

theorem remembers_trigger (events : List ProbeEvent) (iface : String) :
    (PortalPhase.series iface 0).Remembers (events ++ [.trigger iface]) :=
  ⟨by decide, events, [], rfl, by simp, rfl⟩

theorem remembers_portal (events : List ProbeEvent) (iface : String) :
    (PortalPhase.watch iface 0).Remembers (events ++ [.attempt .portal]) :=
  ⟨by decide, events, [], rfl, by simp, rfl⟩

theorem skips_snoc {skips : List ProbeEvent} (skipped : ∀ e ∈ skips, isSkip e = true) :
    ∀ e ∈ skips ++ [.attempt .skip], isSkip e = true := by
  intro e listed
  rcases List.mem_append.mp listed with old | new
  · exact skipped e old
  · rw [List.mem_singleton.mp new]
    rfl

/-- What the phase remembers stays true of one more event. -/
theorem remembers_step {s t : Scheduler} {events : List ProbeEvent} {e : ProbeEvent}
    (stepped : s.step e = some t) (past : s.phase.Remembers events) :
    t.phase.Remembers (events ++ [e]) := by
  obtain ⟨phase⟩ := s
  cases e with
  | trigger iface =>
    obtain rfl := Option.some.inj stepped
    exact remembers_trigger events iface
  | attempt verdict =>
    cases phase with
    | idle => cases stepped
    | series iface attempt =>
      obtain ⟨early, before, skips, rfl, skipped, counted⟩ := past
      obtain rfl := Option.some.inj stepped
      cases verdict with
      | ok => exact fun stands => absurd stands (not_portalStands_ok _)
      | portal => exact remembers_portal _ iface
      | skip =>
        have grown : skips.length + 1 = attempt + 1 := by omega
        unfold Scheduler.onAttemptDone
        by_cases more : attempt + 1 < seriesDelays.length
        · simp only [List.getElem?_eq_getElem more]
          exact ⟨more, before, skips ++ [.attempt .skip], by simp, skips_snoc skipped, by simpa⟩
        · simp only [List.getElem?_eq_none (Nat.le_of_not_lt more)]
          refine fun _ => ⟨before, iface, skips ++ [.attempt .skip], by simp,
            skips_snoc skipped, ?_⟩
          rw [List.length_append, List.length_singleton]
          omega
    | watch iface skipCount =>
      obtain ⟨early, before, skips, rfl, skipped, counted⟩ := past
      obtain rfl := Option.some.inj stepped
      cases verdict with
      | ok => exact fun stands => absurd stands (not_portalStands_ok _)
      | portal => exact remembers_portal _ iface
      | skip =>
        unfold Scheduler.onAttemptDone
        by_cases spent : watchSkipLimit ≤ skipCount + 1
        · simp only [if_pos spent]
          have past : ¬ PortalStands (before ++ .attempt .portal :: (skips ++ [.attempt .skip])) :=
            not_portalStands_of_limit (skips_snoc skipped) (by simpa [counted] using spent)
          intro stands
          rw [List.append_assoc, List.cons_append] at stands
          exact absurd stands past
        · simp only [if_neg spent]
          exact ⟨by omega, before, skips ++ [.attempt .skip], by simp, skips_snoc skipped,
            by simpa⟩

theorem remembers_run {events : List ProbeEvent} {s : Scheduler}
    (run : Runs.runSteps Scheduler.step .new events = some s) : s.phase.Remembers events := by
  induction events using List.reverseRecOn generalizing s with
  | nil =>
    cases run
    rintro ⟨before, after, same, -⟩
    simp at same
  | append_singleton past e ih =>
    obtain ⟨m, reached, last⟩ := Runs.runSteps_append_eq_some.mp run
    obtain ⟨t, stepped, done⟩ := Runs.runSteps_cons_eq_some.mp last
    cases done
    exact remembers_step stepped (ih reached)

/-- A series the skips have spent leaves nothing scheduled. -/
theorem idle_of_seriesSpent {events : List ProbeEvent} {phase : PortalPhase}
    (past : phase.Remembers events) (spent : SeriesSpent events) : phase = .idle := by
  obtain ⟨before, iface, skips, same, skipped, whole⟩ := spent
  cases phase with
  | idle => rfl
  | series iface' attempt =>
    obtain ⟨early, before', skips', same', skipped', counted⟩ := past
    obtain ⟨-, rfl⟩ := last_failing_unique (same.symm.trans same') (p := (isSkip · = true))
      (by simp [isSkip]) (by simp [isSkip]) skipped skipped'
    omega
  | watch iface' skipCount =>
    obtain ⟨-, before', skips', same', skipped', -⟩ := past
    obtain ⟨clash, -⟩ := last_failing_unique (same.symm.trans same') (p := (isSkip · = true))
      (by simp [isSkip]) (by simp [isSkip]) skipped skipped'
    cases clash

theorem target_of_portalStands {events : List ProbeEvent} {s : Scheduler}
    (run : Runs.runSteps Scheduler.step .new events = some s) (stands : PortalStands events) :
    s.target.isSome = true ↔ ¬ SeriesSpent events := by
  have past := remembers_run run
  rw [target_isSome_iff]
  constructor
  · intro armed spent
    exact armed (idle_of_seriesSpent past spent)
  · intro unspent quiet
    rw [quiet] at past
    exact unspent (past stands)

/-- The attempts that can still be made with no trigger and no portal answer. -/
def PortalPhase.attemptsLeft : PortalPhase → Nat
  | .idle => 0
  | .series _ attempt => max 1 (seriesDelays.length - attempt)
  | .watch _ skips => max 1 (watchSkipLimit - skips)

/-- An attempt that answers no portal. -/
def isDull : ProbeEvent → Bool
  | .attempt .portal => false
  | .attempt _ => true
  | .trigger _ => false

theorem attemptsLeft_step {s t : Scheduler} {e : ProbeEvent} (stepped : s.step e = some t)
    (dull : isDull e = true) : t.phase.attemptsLeft < s.phase.attemptsLeft := by
  obtain ⟨phase⟩ := s
  cases e with
  | trigger iface => cases dull
  | attempt verdict =>
    cases phase with
    | idle => cases stepped
    | series iface attempt =>
      obtain rfl := Option.some.inj stepped
      cases verdict with
      | portal => cases dull
      | ok => exact Nat.lt_of_lt_of_le Nat.one_pos (Nat.le_max_left ..)
      | skip =>
        unfold Scheduler.onAttemptDone
        by_cases more : attempt + 1 < seriesDelays.length
        · simp only [List.getElem?_eq_getElem more, PortalPhase.attemptsLeft]
          omega
        · simp only [List.getElem?_eq_none (Nat.le_of_not_lt more), PortalPhase.attemptsLeft]
          omega
    | watch iface skips =>
      obtain rfl := Option.some.inj stepped
      cases verdict with
      | portal => cases dull
      | ok => exact Nat.lt_of_lt_of_le Nat.one_pos (Nat.le_max_left ..)
      | skip =>
        unfold Scheduler.onAttemptDone
        by_cases spent : watchSkipLimit ≤ skips + 1
        · simp only [if_pos spent, PortalPhase.attemptsLeft]
          omega
        · simp only [if_neg spent, PortalPhase.attemptsLeft]
          omega

theorem attemptsLeft_le (phase : PortalPhase) :
    phase.attemptsLeft ≤ max seriesDelays.length watchSkipLimit := by
  cases phase with
  | idle => exact Nat.zero_le _
  | series iface attempt =>
    show max 1 (4 - attempt) ≤ max 4 10
    omega
  | watch iface skips =>
    show max 1 (10 - skips) ≤ max 4 10
    omega

/-- A stretch with no trigger and no portal answer spends what was left. -/
theorem stretch_within_attemptsLeft {stretch : List ProbeEvent} {s t : Scheduler}
    (run : Runs.runSteps Scheduler.step s stretch = some t)
    (dull : ∀ e ∈ stretch, isDull e = true) : stretch.length ≤ s.phase.attemptsLeft := by
  induction stretch generalizing s with
  | nil => exact Nat.zero_le _
  | cons e rest ih =>
    obtain ⟨m, stepped, later⟩ := Runs.runSteps_cons_eq_some.mp run
    have spent := attemptsLeft_step stepped (dull e (by simp))
    have within := ih later fun x listed => dull x (by simp [listed])
    rw [List.length_cons]
    omega

/-- Skips alone, as long as there is a target, end idle. -/
theorem skips_end_idle (s : Scheduler) :
    ∃ n ≤ s.phase.attemptsLeft, ∃ t,
      Runs.runSteps Scheduler.step s (List.replicate n (.attempt .skip)) = some t ∧
      t.target = none := by
  induction left : s.phase.attemptsLeft using Nat.strongRecOn generalizing s with
  | _ budget ih =>
    subst left
    by_cases quiet : s.target = none
    · exact ⟨0, Nat.zero_le _, s, rfl, quiet⟩
    · have stepped : s.step (.attempt .skip) = some (s.onAttemptDone .skip).1 :=
        if_pos (Option.isSome_iff_ne_none.mpr quiet)
      have spent := attemptsLeft_step stepped rfl
      obtain ⟨n, within, t, run, done⟩ := ih _ spent _ rfl
      refine ⟨n + 1, by omega, t, ?_, done⟩
      rw [List.replicate_succ]
      exact Runs.runSteps_cons_eq_some.mpr ⟨_, stepped, run⟩

/-- Along a run the standing portal keeps its target exactly while no trigger has put a series in
the watch's place and the skips have spent it. What is made without a trigger or a portal is
bounded, and skips alone end it. -/
theorem standing_portal_watched_iff (events : List ProbeEvent) :
    ((∀ past rest s, events = past ++ rest →
        Runs.runSteps Scheduler.step .new past = some s → PortalStands past →
        s.target.isSome = true) ↔
      ∀ past rest s, events = past ++ rest →
        Runs.runSteps Scheduler.step .new past = some s →
        ¬ (PortalStands past ∧ SeriesSpent past)) ∧
    (∀ past stretch rest s, events = past ++ stretch ++ rest →
      Runs.runSteps Scheduler.step .new (past ++ stretch) = some s →
      (∀ e ∈ stretch, isDull e = true) →
      stretch.length ≤ max seriesDelays.length watchSkipLimit) ∧
    ∀ s, Runs.runSteps Scheduler.step .new events = some s →
      ∃ n ≤ max seriesDelays.length watchSkipLimit, ∃ t,
        Runs.runSteps Scheduler.step s (List.replicate n (.attempt .skip)) = some t ∧
        t.target = none := by
  refine ⟨⟨?_, ?_⟩, ?_, ?_⟩
  · rintro watched past rest s split run ⟨stands, spent⟩
    exact (target_of_portalStands run stands).mp (watched past rest s split run stands) spent
  · intro unspent past rest s split run stands
    refine (target_of_portalStands run stands).mpr fun spent => ?_
    exact unspent past rest s split run ⟨stands, spent⟩
  · intro past stretch rest s _ run dull
    obtain ⟨m, -, later⟩ := Runs.runSteps_append_eq_some.mp run
    exact Nat.le_trans (stretch_within_attemptsLeft later dull) (attemptsLeft_le _)
  · intro s _
    obtain ⟨n, within, t, run, done⟩ := skips_end_idle s
    exact ⟨n, Nat.le_trans within (attemptsLeft_le _), t, run, done⟩

/-- The same interface gets a fresh address under a standing portal and the tunnel's rebind eats
the series: four skips, and nothing asks again. -/
theorem portal_orphaned_by_trigger :
    ∃ s, Runs.runSteps Scheduler.step .new
        ([.trigger "en0", .attempt .portal, .trigger "en0"] ++
          List.replicate 4 (.attempt .skip)) = some s ∧
      PortalStands ([.trigger "en0", .attempt .portal, .trigger "en0"] ++
        List.replicate 4 (.attempt .skip)) ∧
      ¬ s.target.isSome = true := by
  refine ⟨⟨.idle⟩, by decide, ⟨[.trigger "en0"], .trigger "en0" :: List.replicate 4 (.attempt .skip),
    rfl, ?_, by decide⟩, by decide⟩
  intro verdict listed
  simpa using listed

end NetObserver
