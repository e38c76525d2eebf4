import Mathlib.Logic.Function.Iterate
import NetObserver.IncidentEpisodes
import NetObserver.IncidentId
import NetObserver.StreamFrames
import NetObserver.Timeline

/-! The three places an incident is told in: its durable row, the live ring and the bus. -/

namespace NetObserver

open Timeline

structure Incident where
  id : String
  openedUs : Int
  closedUs : Option Int
  triggerId : String
  signature : String
deriving DecidableEq

structure TriggerFired where
  tsUs : Int
  triggerId : String
  incidentId : String
  detail : String
deriving DecidableEq

/-- What the wired handlers do; the freeze of the pcap ring tells none of the three places. -/
inductive IncidentHandler where
  | record
  | snapshot
  | freezePcap
deriving DecidableEq

/-- The store's tables, oldest row first, with the count of the writes it refused, the ring of
the live snapshot, newest first, and what the bus carried. -/
structure IncidentViews where
  incidents : List Incident
  fired : List TriggerFired
  refused : Nat
  ring : List IncidentSummary
  bus : List Event

/-- The rule's id read back from a minted one; an id of another shape is kept whole. -/
def ruleOf (incidentId : String) : String :=
  ((incidentIdParts incidentId).map Prod.fst).getD incidentId

namespace IncidentViews

/-- `id` is the table's primary key. -/
def openIncident (v : IncidentViews) (i : Incident) : IncidentViews :=
  if v.incidents.any fun row => row.id == i.id then { v with refused := v.refused + 1 }
  else { v with incidents := v.incidents ++ [i] }

def closeRows (id : String) (closedUs : Int) (rows : List Incident) : List Incident :=
  rows.map fun row => if row.id = id then { row with closedUs := some closedUs } else row

def closeIncident (v : IncidentViews) (id : String) (closedUs : Int) : IncidentViews :=
  { v with incidents := closeRows id closedUs v.incidents }

def writeTriggerFired (v : IncidentViews) (t : TriggerFired) : IncidentViews :=
  { v with fired := v.fired ++ [t] }

def recordOnFire (v : IncidentViews) (incidentId : String) (tsUs : Int) (detail : String) :
    IncidentViews :=
  let triggerId := ruleOf incidentId
  (v.openIncident ⟨incidentId, tsUs, none, triggerId, detail⟩).writeTriggerFired
    ⟨tsUs, triggerId, incidentId, detail⟩

def recordOnClear (v : IncidentViews) (incidentId : String) (tsUs : Int) : IncidentViews :=
  v.closeIncident incidentId tsUs

def snapshotOnFire (cap : Nat) (v : IncidentViews) (incidentId : String) (tsUs : Int)
    (detail : String) : IncidentViews :=
  let summary : IncidentSummary := ⟨incidentId, tsUs, none, ruleOf incidentId, detail⟩
  { v with
    bus := v.bus ++ [.incident summary]
    ring := (summary :: v.ring).take cap }

/-- The first entry of the ring under that id is stamped, if there is one. -/
def stampRing (id : String) (closedUs : Int) : List IncidentSummary → List IncidentSummary
  | [] => []
  | i :: rest =>
    if i.id = id then { i with closedUs := some closedUs } :: rest
    else i :: stampRing id closedUs rest

def snapshotOnClear (v : IncidentViews) (incidentId : String) (tsUs : Int) : IncidentViews :=
  let openedUs := (incidentIdParts incidentId).map Prod.snd
  { v with
    bus := v.bus ++ [.incidentClosed incidentId (ruleOf incidentId) openedUs tsUs]
    ring := stampRing incidentId tsUs v.ring }

def handle (cap : Nat) (v : IncidentViews) (h : IncidentHandler) (call : HandlerCall) :
    IncidentViews :=
  match h, call with
  | .record, .onFire id tsUs detail => v.recordOnFire id tsUs detail
  | .record, .onClear id tsUs => v.recordOnClear id tsUs
  | .snapshot, .onFire id tsUs detail => v.snapshotOnFire cap id tsUs detail
  | .snapshot, .onClear id tsUs => v.snapshotOnClear id tsUs
  | .freezePcap, _ => v

end IncidentViews

/-- An engine with the places its handlers write to. -/
structure ToldEngine where
  engine : TriggerEngine IncidentHandler
  views : IncidentViews

namespace ToldEngine

/-- A call reaches the handler in its slot of its trigger. -/
def deliver (cap : Nat) (e : TriggerEngine IncidentHandler) (v : IncidentViews) (d : Delivery) :
    IncidentViews :=
  match e.triggers[d.1]?.bind fun t => t.handlers[d.2.1]? with
  | some h => v.handle cap h d.2.2
  | none => v

def step (cap : Nat) (s : ToldEngine) (st : EngineStep) : ToldEngine :=
  let (engine, calls) := s.engine.step st
  ⟨engine, calls.foldl (deliver cap s.engine) s.views⟩

def run (cap : Nat) (s : ToldEngine) (steps : List EngineStep) : ToldEngine :=
  steps.foldl (step cap) s

end ToldEngine

/-- A call heard by the recording and by the live handler, each of them once. -/
def IncidentViews.told (cap : Nat) (v : IncidentViews) (call : HandlerCall) : IncidentViews :=
  (v.handle cap .record call).handle cap .snapshot call

namespace ToldEngine

end ToldEngine

end NetObserver
