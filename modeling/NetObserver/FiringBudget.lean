import NetObserver.IncidentEpisodes

/-! How soon a trigger can fire again, with and without session edges in between. -/

namespace NetObserver

open Machine

variable {η : Type*}

namespace Trigger

def Fires (t : Trigger η) (s : EngineStep) (nowUs : Int) : Prop :=
  ∃ incidentId detail, .onFire incidentId nowUs detail ∈ (t.step s).2

def ClosedByEdge (t : Trigger η) (s : EngineStep) : Prop :=
  (∃ tsUs, s = .edge tsUs) ∧ t.openIncident ≠ none

/-- A run in which the trigger neither fires nor has an incident closed by an edge. -/
def Undisturbed : Trigger η → List EngineStep → Prop
  | _, [] => True
  | t, s :: steps =>
    (∀ nowUs, ¬ t.Fires s nowUs) ∧ ¬ t.ClosedByEdge s ∧ Undisturbed (t.step s).1 steps

def dropIdleEdges : Trigger η → List EngineStep → List EngineStep
  | _, [] => []
  | t, .edge tsUs :: steps =>
    if t.openIncident.isNone then dropIdleEdges t steps
    else .edge tsUs :: dropIdleEdges (t.step (.edge tsUs)).1 steps
  | t, .sample w nowUs :: steps =>
    .sample w nowUs :: dropIdleEdges (t.step (.sample w nowUs)).1 steps

theorem fires_iff {t : Trigger η} {s : EngineStep} {nowUs : Int} :
    t.Fires s nowUs ↔ ∃ w fire, s = .sample w nowUs ∧ t.condition.eval w = some fire ∧
      t.armed = true ∧ t.backoffUs ≤ satSub nowUs t.lastFireUs := by
  constructor
  · rintro ⟨incidentId, detail, call⟩
    rcases t.step_cases s with
      ⟨w, now, fire, sample, asserts, armed, budget, eq⟩ | ⟨_, _, _, _, _, _, _, eq⟩ | ⟨_, _, eq⟩
    · rw [eq, List.mem_singleton] at call
      cases call
      exact ⟨w, fire, sample, asserts, armed, budget⟩
    · rw [eq, List.mem_singleton] at call
      cases call
    · rw [eq] at call
      cases call
  · rintro ⟨w, fire, rfl, asserts, armed, budget⟩
    refine ⟨mintIncidentId t.condition.id nowUs, fire.detail, ?_⟩
    simp [step, onSample, asserts, armed, budget]

theorem lastFireUs_of_fires {t : Trigger η} {s : EngineStep} {nowUs : Int}
    (fires : t.Fires s nowUs) : (t.step s).1.lastFireUs = nowUs := by
  obtain ⟨w, fire, rfl, asserts, armed, budget⟩ := fires_iff.mp fires
  simp [step, onSample, asserts, armed, budget]

theorem lastFireUs_of_undisturbed {t : Trigger η} {steps : List EngineStep}
    (quiet : t.Undisturbed steps) : (t.run steps).1.lastFireUs = t.lastFireUs := by
  induction steps generalizing t with
  | nil => rfl
  | cons s steps ih =>
    obtain ⟨silent, kept, later⟩ := quiet
    have rest : (t.run (s :: steps)).1.lastFireUs = (t.step s).1.lastFireUs := ih later
    rw [rest]
    rcases t.step_cases s with
      ⟨w, now, fire, sample, asserts, armed, budget, _⟩ |
      ⟨id, opened, closed, lastFireUs, pending, _, unchanged, eq⟩ | ⟨_, _, eq⟩
    · exact absurd (fires_iff.mpr ⟨w, fire, sample, asserts, armed, budget⟩) (silent now)
    · rw [eq]
      rcases unchanged with same | edge
      · exact same
      · exact absurd ⟨edge, by simp [pending]⟩ kept
    · rw [eq]

theorem run_condition (t : Trigger η) (steps : List EngineStep) :
    (t.run steps).1.condition = t.condition ∧ (t.run steps).1.backoffUs = t.backoffUs := by
  induction steps generalizing t with
  | nil => exact ⟨rfl, rfl⟩
  | cons s steps ih =>
    obtain ⟨condition, backoff⟩ := ih (t.step s).1
    obtain ⟨sameCondition, sameBackoff⟩ := t.step_condition s
    exact ⟨condition.trans sameCondition, backoff.trans sameBackoff⟩

/-- Two firings with neither a firing nor a closing edge between them keep the backoff. -/
theorem spacing {t : Trigger η} {s₁ s₂ : EngineStep} {mid : List EngineStep} {t₁ t₂ : Int}
    (first : t.Fires s₁ t₁) (quiet : (t.step s₁).1.Undisturbed mid)
    (second : ((t.step s₁).1.run mid).1.Fires s₂ t₂) : t.backoffUs ≤ satSub t₂ t₁ := by
  obtain ⟨_, _, _, _, _, budget⟩ := fires_iff.mp second
  rwa [lastFireUs_of_undisturbed quiet, lastFireUs_of_fires first, (run_condition _ mid).2,
    (t.step_condition s₁).2] at budget

theorem idle_edge {t : Trigger η} (latch : t.LatchMatches) (idle : t.openIncident = none)
    (tsUs : Int) : t.step (.edge tsUs) = (t, []) := by
  have armed := latch.mpr idle
  obtain ⟨condition, handlers, backoffUs, isArmed, lastFireUs, opened⟩ := t
  subst armed idle
  rfl

theorem run_dropIdleEdges {t : Trigger η} (latch : t.LatchMatches) (steps : List EngineStep) :
    t.run (t.dropIdleEdges steps) = t.run steps := by
  induction steps generalizing t with
  | nil => rfl
  | cons s steps ih =>
    have rest := ih (latchMatches_step s latch)
    have keep : t.run (s :: (t.step s).1.dropIdleEdges steps) = t.run (s :: steps) := by
      simp only [run, Runs.emit_cons] at rest ⊢
      rw [rest]
    cases s with
    | sample w nowUs => exact keep
    | edge tsUs =>
      unfold dropIdleEdges
      by_cases idle : t.openIncident.isNone
      · have same := idle_edge latch (Option.isNone_iff_eq_none.mp idle) tsUs
        rw [same] at rest
        rw [if_pos idle, rest]
        simp [run, same]
      · rw [if_neg idle]
        exact keep

def Silent (condition : Condition) (steps : List EngineStep) : Prop :=
  ∀ w nowUs, .sample w nowUs ∈ steps → condition.eval w = none

/-- An unspent trigger: armed, nothing open, and as if it had never fired. -/
def Unspent (t : Trigger η) : Prop :=
  t.armed = true ∧ t.openIncident = none ∧ t.lastFireUs = i64Min

theorem unspent_of_closing_edge {t : Trigger η} (opened : t.openIncident ≠ none) (tsUs : Int) :
    (t.step (.edge tsUs)).1.Unspent := by
  cases incident : t.openIncident with
  | none => exact absurd incident opened
  | some pair => simp [step, closeOpen, rearm, incident, Unspent]

theorem unspent_step {t : Trigger η} {s : EngineStep} (unspent : t.Unspent)
    (silent : ∀ w nowUs, s = .sample w nowUs → t.condition.eval w = none) :
    (t.step s).1.Unspent := by
  obtain ⟨armed, idle, never⟩ := unspent
  cases s with
  | edge tsUs => simp [step, closeOpen, rearm, idle, Unspent, never]
  | sample w nowUs =>
    simp [step, onSample, silent w nowUs rfl, idle, Unspent, never]

theorem unspent_run {t : Trigger η} {steps : List EngineStep} (unspent : t.Unspent)
    (silent : Silent t.condition steps) : (t.run steps).1.Unspent := by
  induction steps generalizing t with
  | nil => exact unspent
  | cons s steps ih =>
    have here : ∀ w nowUs, s = .sample w nowUs → t.condition.eval w = none := by
      rintro w nowUs rfl
      exact silent w nowUs List.mem_cons_self
    refine ih (unspent_step unspent here) ?_
    rw [(t.step_condition s).1]
    exact fun w nowUs mem => silent w nowUs (List.mem_cons_of_mem _ mem)

end Trigger

/-- The firing budget of one trigger, in any state a run of the engine brings it to: its
firings keep the backoff, session edges that find nothing open change nothing at all, and one
that closes an incident frees the next assertion, from the backoff after the least instant on. -/
structure FiringBudget (t : Trigger η) : Prop where
  spaced : ∀ s₁ mid s₂ t₁ t₂, t.Fires s₁ t₁ → (t.step s₁).1.Undisturbed mid →
    ((t.step s₁).1.run mid).1.Fires s₂ t₂ →
    t.backoffUs ≤ satSub t₂ t₁ ∧ (i64Min < t.backoffUs → t.backoffUs ≤ t₂ - t₁)
  idle : ∀ steps, t.run (t.dropIdleEdges steps) = t.run steps
  freed : ∀ tsUs quiet w fire nowUs, t.openIncident ≠ none → Trigger.Silent t.condition quiet →
    t.condition.eval w = some fire → i64Min + t.backoffUs ≤ nowUs →
    (t.run (.edge tsUs :: quiet)).1.Fires (.sample w nowUs) nowUs

theorem firingBudget_of_latchMatches {t : Trigger η} (range : t.backoffUs ≤ i64Max)
    (latch : t.LatchMatches) : FiringBudget t := by
  refine ⟨?_, t.run_dropIdleEdges latch, ?_⟩
  · intro s₁ mid s₂ t₁ t₂ first quiet second
    have saturated := Trigger.spacing first quiet second
    refine ⟨saturated, fun low => ?_⟩
    have exact := satSub_lt_iff (a := t₂) (b := t₁) low range
    omega
  · intro tsUs quiet w fire nowUs opened silent asserts late
    have edge := t.unspent_of_closing_edge opened tsUs
    have quietAfter : Trigger.Silent (t.step (.edge tsUs)).1.condition quiet := by
      rwa [(t.step_condition _).1]
    obtain ⟨armed, _, never⟩ := Trigger.unspent_run edge quietAfter
    obtain ⟨condition, backoff⟩ := t.run_condition (.edge tsUs :: quiet)
    refine Trigger.fires_iff.mpr ⟨w, fire, rfl, by rwa [condition], armed, ?_⟩
    have last : (t.run (.edge tsUs :: quiet)).1.lastFireUs = i64Min := never
    rw [backoff, last]
    unfold satSub clampI64
    omega

/-- Every trigger of an engine keeps its firing budget, after any run. -/
theorem firing_budget {rules : List (Condition × List η × Int)} {i : Nat} {condition : Condition}
    {handlers : List η} {backoffUs : Int} (rule : rules[i]? = some (condition, handlers, backoffUs))
    (range : backoffUs ≤ i64Max) (steps : List EngineStep) :
    ∃ t, ((TriggerEngine.fresh rules).run steps).1.triggers[i]? = some t ∧
      t.condition = condition ∧ t.backoffUs = backoffUs ∧ FiringBudget t := by
  have start : (TriggerEngine.fresh rules).triggers[i]? =
      some (Trigger.new condition handlers backoffUs) := by
    simp [TriggerEngine.fresh, rule]
  obtain ⟨sameCondition, sameBackoff⟩ :=
    (Trigger.new condition handlers backoffUs).run_condition steps
  refine ⟨_, TriggerEngine.run_state _ steps start, sameCondition, sameBackoff, ?_⟩
  refine firingBudget_of_latchMatches ?_ (latchMatches_run steps (latchMatches_new _ _ _))
  rw [sameBackoff]
  exact range

/-- A drop that an edge closed, asserted again at the least instant there is. -/
theorem freed_trigger_silent_at_least_instant :
    let t := (Trigger.new gwDrop [()] 1).run
      [.sample ((RecentWindow.new 1).push (.link (.gatewayOnly 0 .fail))) 0]
    t.1.openIncident ≠ none ∧
      ((RecentWindow.new 1).push (.link (.gatewayOnly 0 .fail)) |> gwDrop.eval) ≠ none ∧
      ¬ (t.1.run [.edge 0]).1.Fires
        (.sample ((RecentWindow.new 1).push (.link (.gatewayOnly 0 .fail))) i64Min) i64Min := by
  refine ⟨by decide, by decide, ?_⟩
  rintro ⟨incidentId, detail, call⟩
  have nothing : (((((Trigger.new gwDrop [()] 1).run
      [.sample ((RecentWindow.new 1).push (.link (.gatewayOnly 0 .fail))) 0]).1.run
        [.edge 0]).1).step
          (.sample ((RecentWindow.new 1).push (.link (.gatewayOnly 0 .fail))) i64Min)).2 = [] := rfl
  rw [nothing] at call
  cases call

theorem firing_budget_gwDrop :
    ∃ t, ((TriggerEngine.fresh [(gwDrop, [()], 60000000)]).run sameInstantRun).1.triggers[0]? =
        some t ∧
      t.condition = gwDrop ∧ t.backoffUs = 60000000 ∧ FiringBudget t :=
  firing_budget (η := Unit) rfl (by decide) sameInstantRun

end NetObserver
