import NetObserver.Episodes
import NetObserver.LinkConditions
import NetObserver.TriggerEngine

/-! The incidents a trigger opens and closes, over whole runs of the engine. -/

namespace NetObserver

variable {η : Type*}

def HandlerCall.event : HandlerCall → Episodes.Event String Int
  | .onFire incidentId tsUs _ => .opens incidentId tsUs
  | .onClear incidentId tsUs => .closes incidentId tsUs

def incidentsOf (calls : List HandlerCall) : List (Episodes.Event String Int) :=
  calls.map HandlerCall.event

/-- The latch is set exactly while nothing is open. -/
def Trigger.LatchMatches (t : Trigger η) : Prop := t.armed = true ↔ t.openIncident = none

theorem mintIncidentId_injective (triggerId : String) :
    Function.Injective (mintIncidentId triggerId) := by
  intro a b same
  have tails : a.repr.toList = b.repr.toList := by
    have lists := congrArg String.toList same
    simpa [mintIncidentId] using lists
  exact Int.repr_injective (String.toList_inj.mp tails)

theorem latchMatches_new (condition : Condition) (handlers : List η) (backoffUs : Int) :
    (Trigger.new condition handlers backoffUs).LatchMatches :=
  ⟨fun _ => rfl, fun _ => rfl⟩

/-- The ways a step leaves a trigger: it fires, it closes what is open, or nothing is heard. -/
theorem Trigger.step_cases (t : Trigger η) (s : EngineStep) :
    (∃ w nowUs fire, s = .sample w nowUs ∧ t.condition.eval w = some fire ∧ t.armed = true ∧
      t.backoffUs ≤ Machine.satSub nowUs t.lastFireUs ∧
      t.step s = ({ t with
          armed := false
          lastFireUs := nowUs
          openIncident := some (mintIncidentId t.condition.id nowUs, nowUs) },
        [.onFire (mintIncidentId t.condition.id nowUs) nowUs fire.detail])) ∨
    (∃ id openedUs closedUs lastFireUs, t.openIncident = some (id, openedUs) ∧
      openedUs ≤ closedUs ∧ (lastFireUs = t.lastFireUs ∨ ∃ tsUs, s = .edge tsUs) ∧
      t.step s = ({ t with armed := true, lastFireUs := lastFireUs, openIncident := none },
        [.onClear id closedUs])) ∨
    (∃ armed, (armed = t.armed ∨ armed = true ∧ t.openIncident = none) ∧
      t.step s = ({ t with armed := armed }, [])) := by
  cases s with
  | sample w nowUs =>
    cases asserts : t.condition.eval w with
    | some fire =>
      by_cases free : t.armed = true ∧ t.backoffUs ≤ Machine.satSub nowUs t.lastFireUs
      · refine .inl ⟨w, nowUs, fire, rfl, asserts, free.1, free.2, ?_⟩
        simp [step, onSample, asserts, free.1, free.2]
      · refine .inr (.inr ⟨t.armed, .inl rfl, ?_⟩)
        have held : (t.armed && decide (t.backoffUs ≤ Machine.satSub nowUs t.lastFireUs)) = false := by
          simpa using free
        simp [step, onSample, asserts, held]
    | none =>
      cases opened : t.openIncident with
      | some incident =>
        refine .inr (.inl ⟨incident.1, incident.2, max nowUs incident.2, t.lastFireUs, rfl,
          le_max_right _ _, .inl rfl, ?_⟩)
        simp [step, onSample, asserts, opened]
      | none =>
        refine .inr (.inr ⟨true, .inr ⟨rfl, rfl⟩, ?_⟩)
        simp [step, onSample, asserts, opened]
  | edge tsUs =>
    cases opened : t.openIncident with
    | some incident =>
      refine .inr (.inl ⟨incident.1, incident.2, max tsUs incident.2, Machine.i64Min, rfl,
        le_max_right _ _, .inr ⟨tsUs, rfl⟩, ?_⟩)
      simp [step, closeOpen, rearm, opened]
    | none =>
      refine .inr (.inr ⟨true, .inr ⟨rfl, rfl⟩, ?_⟩)
      simp [step, closeOpen, rearm, opened]

theorem Trigger.step_condition (t : Trigger η) (s : EngineStep) :
    (t.step s).1.condition = t.condition ∧ (t.step s).1.backoffUs = t.backoffUs := by
  rcases t.step_cases s with ⟨_, _, _, _, _, _, _, eq⟩ | ⟨_, _, _, _, _, _, _, eq⟩ | ⟨_, _, eq⟩
  all_goals
    rw [eq]
    exact ⟨rfl, rfl⟩

theorem latchMatches_step {t : Trigger η} (s : EngineStep) (latch : t.LatchMatches) :
    (t.step s).1.LatchMatches := by
  rcases t.step_cases s with ⟨_, _, _, _, _, _, _, eq⟩ | ⟨_, _, _, _, _, _, _, eq⟩ | ⟨_, same, eq⟩
  · simp [eq, Trigger.LatchMatches]
  · simp [eq, Trigger.LatchMatches]
  · rw [eq]
    rcases same with rfl | ⟨rfl, closed⟩
    · exact latch
    · simp [Trigger.LatchMatches, closed]

theorem latchMatches_run {t : Trigger η} (steps : List EngineStep) (latch : t.LatchMatches) :
    (t.run steps).1.LatchMatches :=
  Runs.emit_invariant (fun _ s h => latchMatches_step s h) steps latch

theorem alternates_step {t : Trigger η} (s : EngineStep) (latch : t.LatchMatches) :
    Episodes.Alternates t.openIncident (incidentsOf (t.step s).2) (t.step s).1.openIncident := by
  rcases t.step_cases s with
    ⟨w, nowUs, fire, _, _, armed, _, eq⟩ | ⟨id, opened, closed, _, pending, order, _, eq⟩ | ⟨_, _, eq⟩
  · rw [eq, latch.mp armed]
    exact .opens (.done _)
  · rw [eq, pending]
    exact .closes order (.done none)
  · rw [eq]
    exact .done _

theorem alternates_run {t : Trigger η} (steps : List EngineStep) (latch : t.LatchMatches) :
    Episodes.Alternates t.openIncident (incidentsOf (t.run steps).2) (t.run steps).1.openIncident := by
  induction steps generalizing t with
  | nil => exact .done _
  | cons s steps ih =>
    have first := alternates_step s latch
    have rest := ih (latchMatches_step s latch)
    have split : incidentsOf (t.run (s :: steps)).2 =
        incidentsOf (t.step s).2 ++ incidentsOf ((t.step s).1.run steps).2 := List.map_append
    rw [split]
    exact first.append rest

theorem minted_step (t : Trigger η) (s : EngineStep) :
    Episodes.openedKeys (incidentsOf (t.step s).2) =
      (Episodes.openedStamps (incidentsOf (t.step s).2)).map (mintIncidentId t.condition.id) := by
  rcases t.step_cases s with ⟨_, _, _, _, _, _, _, eq⟩ | ⟨_, _, _, _, _, _, _, eq⟩ | ⟨_, _, eq⟩
  all_goals
    rw [eq]
    rfl

theorem minted_run (t : Trigger η) (steps : List EngineStep) :
    Episodes.openedKeys (incidentsOf (t.run steps).2) =
      (Episodes.openedStamps (incidentsOf (t.run steps).2)).map (mintIncidentId t.condition.id) := by
  induction steps generalizing t with
  | nil => rfl
  | cons s steps ih =>
    have first := minted_step t s
    have rest := ih (t.step s).1
    rw [(t.step_condition s).1] at rest
    have split : incidentsOf (t.run (s :: steps)).2 =
        incidentsOf (t.step s).2 ++ incidentsOf ((t.step s).1.run steps).2 := List.map_append
    rw [split]
    simp only [Episodes.openedKeys, Episodes.openedStamps, List.filterMap_append,
      List.map_append] at first rest ⊢
    rw [first, rest]

theorem closeOpen_openIncident (t : Trigger η) (tsUs : Int) :
    (t.closeOpen tsUs).1.openIncident = none := by
  cases opened : t.openIncident <;> simp [Trigger.closeOpen, opened]

def TriggerEngine.fresh (rules : List (Condition × List η × Int)) : TriggerEngine η :=
  ⟨rules.map fun rule => Trigger.new rule.1 rule.2.1 rule.2.2⟩

/-- What one handler of a trigger hears of its incidents, `opened` being the trigger's own
open incident at the end. -/
structure PairedIncidents (events : List (Episodes.Event String Int))
    (opened : Option (String × Int)) : Prop where
  alternate : Episodes.Alternates none events opened
  cleared : ∀ id, (Episodes.closedKeys events).count id ≤ (Episodes.openedKeys events).count id
  once : (Episodes.openedStamps events).Nodup → (Episodes.closedKeys events).Nodup

/-- Every handler of every trigger hears fires and clears in strict alternation; a clear names
the incident just opened, and an id is cleared twice only where the trigger fired twice at one
instant. -/
theorem incidents_paired {rules : List (Condition × List η × Int)} {i slot : Nat}
    {condition : Condition} {handlers : List η} {backoffUs : Int}
    (rule : rules[i]? = some (condition, handlers, backoffUs)) (handler : slot < handlers.length)
    (steps : List EngineStep) :
    ∃ t, ((TriggerEngine.fresh rules).run steps).1.triggers[i]? = some t ∧
      PairedIncidents
        (incidentsOf (TriggerEngine.heard i slot ((TriggerEngine.fresh rules).run steps).2))
        t.openIncident ∧
      ∀ tsUs, ∀ u ∈ (((TriggerEngine.fresh rules).run steps).1.closeAll tsUs).1.triggers,
        u.openIncident = none := by
  have start : (TriggerEngine.fresh rules).triggers[i]? =
      some (Trigger.new condition handlers backoffUs) := by
    simp [TriggerEngine.fresh, rule]
  obtain ⟨state, calls⟩ := TriggerEngine.run_trigger _ steps start handler
  have latch := latchMatches_new condition handlers backoffUs
  have alternate := alternates_run steps latch
  refine ⟨_, state, ?_, ?_⟩
  · rw [calls]
    exact ⟨alternate, alternate.count_closed_le,
      alternate.closedKeys_nodup (mintIncidentId_injective condition.id) (minted_run _ steps)⟩
  · intro tsUs u mem
    rw [TriggerEngine.closeAll, TriggerEngine.forEach_triggers] at mem
    obtain ⟨v, _, rfl⟩ := List.mem_map.mp mem
    exact closeOpen_openIncident v tsUs

def sameInstantRun : List EngineStep :=
  [.sample ((RecentWindow.new 1).push (.link (.gatewayOnly 5 .fail))) 5,
    .sample ((RecentWindow.new 1).push (.link (.gatewayOnly 5 .ok))) 5,
    .sample ((RecentWindow.new 1).push (.link (.gatewayOnly 5 .fail))) 5,
    .sample ((RecentWindow.new 1).push (.link (.gatewayOnly 5 .ok))) 5]

theorem incident_cleared_twice :
    Episodes.closedKeys (incidentsOf (TriggerEngine.heard 0 0
        ((TriggerEngine.fresh [(gwDrop, [()], 0)]).run sameInstantRun).2)) =
        ["gw-drop-5", "gw-drop-5"] := by
  decide

theorem incidents_paired_sameInstant :
    ∃ t, ((TriggerEngine.fresh [(gwDrop, [()], 0)]).run sameInstantRun).1.triggers[0]? = some t ∧
      PairedIncidents
        (incidentsOf (TriggerEngine.heard 0 0
          ((TriggerEngine.fresh [(gwDrop, [()], 0)]).run sameInstantRun).2))
        t.openIncident ∧
      ∀ tsUs, ∀ u ∈
        (((TriggerEngine.fresh [(gwDrop, [()], 0)]).run sameInstantRun).1.closeAll tsUs).1.triggers,
        u.openIncident = none :=
  incidents_paired (η := Unit) rfl Nat.zero_lt_one sameInstantRun

end NetObserver
