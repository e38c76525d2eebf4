import Std.Data.String.ToInt
import NetObserver.Condition
import NetObserver.Machine
import NetObserver.Runs

/-! The trigger engine: every condition on every sample, with a latch and a firing budget. -/

namespace NetObserver

open Machine

def mintIncidentId (triggerId : String) (openedUs : Int) : String :=
  triggerId ++ "-" ++ openedUs.repr

inductive HandlerCall where
  | onFire (incidentId : String) (tsUs : Int) (detail : String)
  | onClear (incidentId : String) (tsUs : Int)

/-- One rule with the handlers it runs, of any kind `η`. -/
structure Trigger (η : Type*) where
  condition : Condition
  handlers : List η
  backoffUs : Int
  armed : Bool
  lastFireUs : Int
  openIncident : Option (String × Int)

namespace Trigger

variable {η : Type*}

def new (condition : Condition) (handlers : List η) (backoffUs : Int) : Trigger η where
  condition := condition
  handlers := handlers
  backoffUs := backoffUs
  armed := true
  lastFireUs := i64Min
  openIncident := none

def onSample (t : Trigger η) (w : RecentWindow) (nowUs : Int) : Trigger η × List HandlerCall :=
  match t.condition.eval w with
  | some fire =>
    if t.armed && decide (t.backoffUs ≤ satSub nowUs t.lastFireUs) then
      let incidentId := mintIncidentId t.condition.id nowUs
      ({ t with armed := false, lastFireUs := nowUs, openIncident := some (incidentId, nowUs) },
        [.onFire incidentId nowUs fire.detail])
    else (t, [])
  | none =>
    match t.openIncident with
    | some (id, openedUs) =>
      ({ t with armed := true, openIncident := none }, [.onClear id (max nowUs openedUs)])
    | none => ({ t with armed := true }, [])

def rearm (t : Trigger η) : Trigger η := { t with armed := true }

def closeOpen (t : Trigger η) (tsUs : Int) : Trigger η × List HandlerCall :=
  match t.openIncident with
  | some (id, openedUs) =>
    ({ t with armed := true, lastFireUs := i64Min, openIncident := none },
      [.onClear id (max tsUs openedUs)])
  | none => (t, [])

def deliver (t : Trigger η) (calls : List HandlerCall) : List (Nat × HandlerCall) :=
  calls.flatMap (Runs.broadcast t.handlers.length)

end Trigger

/-- What the consumer asks of the engine: judge a sample, or end the session at an edge. -/
inductive EngineStep where
  | sample (w : RecentWindow) (nowUs : Int)
  | edge (tsUs : Int)

abbrev Delivery := Nat × Nat × HandlerCall

structure TriggerEngine (η : Type*) where
  triggers : List (Trigger η)

namespace TriggerEngine

variable {η : Type*}

def forEach (act : Trigger η → Trigger η × List HandlerCall) (e : TriggerEngine η) :
    TriggerEngine η × List Delivery :=
  let (triggers, calls) := Runs.stepAll
    (fun (t : Trigger η) (_ : Unit) => ((act t).1, t.deliver (act t).2)) 0 e.triggers ()
  (⟨triggers⟩, calls)

def onSample (e : TriggerEngine η) (w : RecentWindow) (nowUs : Int) :
    TriggerEngine η × List Delivery :=
  e.forEach fun t => t.onSample w nowUs

def rearmAll (e : TriggerEngine η) : TriggerEngine η := ⟨e.triggers.map Trigger.rearm⟩

def closeAll (e : TriggerEngine η) (tsUs : Int) : TriggerEngine η × List Delivery :=
  e.forEach fun t => t.closeOpen tsUs

/-- The session edge as the consumer performs it: close everything, then re-arm. -/
def step (e : TriggerEngine η) : EngineStep → TriggerEngine η × List Delivery
  | .sample w nowUs => e.onSample w nowUs
  | .edge tsUs =>
    let (closed, calls) := e.closeAll tsUs
    (closed.rearmAll, calls)

def run (e : TriggerEngine η) (steps : List EngineStep) : TriggerEngine η × List Delivery :=
  Runs.emit step e steps

def heard (trigger slot : Nat) (calls : List Delivery) : List HandlerCall :=
  Runs.outputsOf slot (Runs.outputsOf trigger calls)

end TriggerEngine

def Trigger.step {η : Type*} (t : Trigger η) : EngineStep → Trigger η × List HandlerCall
  | .sample w nowUs => t.onSample w nowUs
  | .edge tsUs => ((t.closeOpen tsUs).1.rearm, (t.closeOpen tsUs).2)

def Trigger.run {η : Type*} (t : Trigger η) (steps : List EngineStep) :
    Trigger η × List HandlerCall :=
  Runs.emit Trigger.step t steps

theorem Trigger.step_handlers {η : Type*} (t : Trigger η) (s : EngineStep) :
    (t.step s).1.handlers = t.handlers := by
  cases s with
  | sample w nowUs =>
    simp only [Trigger.step, Trigger.onSample]
    split
    · split <;> rfl
    · split <;> rfl
  | edge tsUs =>
    simp only [Trigger.step, Trigger.closeOpen, Trigger.rearm]
    split <;> rfl

theorem Trigger.outputsOf_deliver {η : Type*} (t : Trigger η) {slot : Nat}
    (h : slot < t.handlers.length) (calls : List HandlerCall) :
    Runs.outputsOf slot (t.deliver calls) = calls := by
  induction calls with
  | nil => rfl
  | cons call calls ih =>
    have split : t.deliver (call :: calls) =
        Runs.broadcast t.handlers.length call ++ t.deliver calls := rfl
    rw [split, Runs.outputsOf_append, Runs.outputsOf_broadcast, if_pos h, ih]
    rfl

def Trigger.stepDelivered {η : Type*} (t : Trigger η) (s : EngineStep) :
    Trigger η × List (Nat × HandlerCall) :=
  ((t.step s).1, t.deliver (t.step s).2)

theorem Trigger.run_delivered {η : Type*} (t : Trigger η) (steps : List EngineStep) {slot : Nat}
    (h : slot < t.handlers.length) :
    Runs.outputsOf slot (Runs.emit Trigger.stepDelivered t steps).2 = (t.run steps).2 := by
  induction steps generalizing t with
  | nil => rfl
  | cons s steps ih =>
    have rest := ih (t.step s).1 (by rwa [t.step_handlers s])
    change Runs.outputsOf slot (t.deliver (t.step s).2 ++ _) = (t.step s).2 ++ _
    rw [Runs.outputsOf_append, t.outputsOf_deliver h]
    exact congrArg _ rest

namespace TriggerEngine

variable {η : Type*}

theorem forEach_triggers (act : Trigger η → Trigger η × List HandlerCall) (e : TriggerEngine η) :
    (e.forEach act).1.triggers = e.triggers.map fun t => (act t).1 :=
  Runs.stepAll_states _ 0 e.triggers ()

theorem step_triggers (e : TriggerEngine η) (s : EngineStep) :
    (e.step s).1.triggers = e.triggers.map fun t => (t.step s).1 := by
  cases s with
  | sample w nowUs => exact e.forEach_triggers _
  | edge tsUs =>
    change List.map Trigger.rearm (e.forEach fun t => t.closeOpen tsUs).1.triggers = _
    rw [forEach_triggers, List.map_map]
    rfl

theorem forEach_calls (act : Trigger η → Trigger η × List HandlerCall) (e : TriggerEngine η)
    {s : EngineStep} (same : ∀ t, (act t).2 = (t.step s).2) :
    (e.forEach act).2 = (Runs.stepAll Trigger.stepDelivered 0 e.triggers s).2 := by
  have delivered (t : Trigger η) : t.deliver (act t).2 = (t.stepDelivered s).2 := by
    rw [same t]
    rfl
  exact Runs.stepAll_outputs_congr delivered 0 e.triggers

theorem step_calls (e : TriggerEngine η) (s : EngineStep) :
    (e.step s).2 = (Runs.stepAll Trigger.stepDelivered 0 e.triggers s).2 := by
  cases s with
  | sample w nowUs => exact e.forEach_calls _ fun _ => rfl
  | edge tsUs => exact e.forEach_calls _ fun _ => rfl

theorem step_eq_stepAll (e : TriggerEngine η) (s : EngineStep) :
    e.step s = (⟨(Runs.stepAll Trigger.stepDelivered 0 e.triggers s).1⟩,
      (Runs.stepAll Trigger.stepDelivered 0 e.triggers s).2) := by
  refine Prod.ext (congrArg TriggerEngine.mk ?_) (e.step_calls s)
  rw [Runs.stepAll_states]
  exact e.step_triggers s

theorem run_eq_emit_stepAll (e : TriggerEngine η) (steps : List EngineStep) :
    e.run steps = (⟨(Runs.emit (Runs.stepAll Trigger.stepDelivered 0) e.triggers steps).1⟩,
      (Runs.emit (Runs.stepAll Trigger.stepDelivered 0) e.triggers steps).2) := by
  induction steps generalizing e with
  | nil => rfl
  | cons s steps ih =>
    have first := e.step_eq_stepAll s
    have rest := ih (e.step s).1
    change ((run (e.step s).1 steps).1, (e.step s).2 ++ (run (e.step s).1 steps).2) = _
    rw [rest, first]
    rfl

theorem stepDelivered_run (t : Trigger η) (steps : List EngineStep) :
    (Runs.emit Trigger.stepDelivered t steps).1 = (t.run steps).1 := by
  induction steps generalizing t with
  | nil => rfl
  | cons s steps ih => exact ih (t.step s).1

theorem run_state (e : TriggerEngine η) (steps : List EngineStep) {i : Nat} {t : Trigger η}
    (trigger : e.triggers[i]? = some t) :
    (e.run steps).1.triggers[i]? = some (t.run steps).1 := by
  obtain ⟨state, _⟩ := Runs.emit_stepAll Trigger.stepDelivered steps trigger
  rw [run_eq_emit_stepAll, ← stepDelivered_run]
  exact state

/-- In a run of the engine every trigger goes through its own run, and each of its handlers
hears exactly the calls of that run. -/
theorem run_trigger (e : TriggerEngine η) (steps : List EngineStep) {i slot : Nat} {t : Trigger η}
    (trigger : e.triggers[i]? = some t) (handler : slot < t.handlers.length) :
    (e.run steps).1.triggers[i]? = some (t.run steps).1 ∧
      heard i slot (e.run steps).2 = (t.run steps).2 := by
  refine ⟨e.run_state steps trigger, ?_⟩
  obtain ⟨_, calls⟩ := Runs.emit_stepAll Trigger.stepDelivered steps trigger
  rw [run_eq_emit_stepAll, heard, calls, t.run_delivered steps handler]

theorem heard_closeAll (e : TriggerEngine η) (tsUs : Int) {i slot : Nat} {t : Trigger η}
    (trigger : e.triggers[i]? = some t) (handler : slot < t.handlers.length) :
    heard i slot (e.closeAll tsUs).2 = (t.closeOpen tsUs).2 := by
  have calls := e.forEach_calls (fun t => t.closeOpen tsUs) (s := .edge tsUs) fun _ => rfl
  have own := Runs.stepAll_outputs Trigger.stepDelivered 0 i trigger (.edge tsUs)
  rw [Nat.zero_add] at own
  rw [heard, closeAll, calls, own]
  exact t.outputsOf_deliver handler _

end TriggerEngine

end NetObserver
