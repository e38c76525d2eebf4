import NetObserver.ControlPath
import NetObserver.Samples

/-! The frames a held-open subscription carries, and the filter they pass. -/

namespace NetObserver

inductive EventKind where
  | link
  | proxy
  | dns
  | route
  | host
  | wifi
  | neighbors
  | air
  | connections
  | singboxLog
  | portal
  | incident
  | incidentClosed
deriving DecidableEq

structure ConnectionsSummary where
  tsUs : Int
  verdict : ConnectionsVerdict
  flows : Nat
  hosts : Nat

structure IncidentSummary where
  id : String
  openedUs : Int
  closedUs : Option Int
  triggerId : String
  signature : String
deriving DecidableEq

inductive Event where
  | link (l : LinkSample)
  | proxy (p : ProxySample)
  | dns (d : DnsSample)
  | route (r : RouteEvent)
  | host (h : HostSample)
  | wifi (w : WifiSample)
  | neighbors (n : NeighborsSample)
  | air (a : AirSample)
  | connections (c : ConnectionsSummary)
  | singboxLog (s : SingboxLogSample)
  | portal (p : PortalSample)
  | incident (i : IncidentSummary)
  | incidentClosed (id triggerId : String) (openedUs : Option Int) (closedUs : Int)

def Event.kind : Event → EventKind
  | .link _ => .link
  | .proxy _ => .proxy
  | .dns _ => .dns
  | .route _ => .route
  | .host _ => .host
  | .wifi _ => .wifi
  | .neighbors _ => .neighbors
  | .air _ => .air
  | .connections _ => .connections
  | .singboxLog _ => .singboxLog
  | .portal _ => .portal
  | .incident _ => .incident
  | .incidentClosed .. => .incidentClosed

structure Ready where
  tsUs : Int
  kinds : Option (List EventKind)
  observing : Bool
  probing : ProbingTier

structure Gap where
  tsUs : Int
  skipped : Nat

inductive StreamErrorCode where
  | tooManySubscribers

structure StreamError where
  tsUs : Int
  code : StreamErrorCode
  message : String

/-- The frames a daemon sends; the one a client makes of what it cannot read is left out. -/
inductive StreamFrame where
  | ready (r : Ready)
  | event (e : Event)
  | gap (g : Gap)
  | observing (o : ObservingEdge)
  | probing (p : ProbingEdge)
  | error (e : StreamError)

def StreamFrame.eventKind : StreamFrame → Option EventKind
  | .event e => some e.kind
  | .ready _ | .gap _ | .observing _ | .probing _ | .error _ => none

/-- A frame encoded once for every subscriber: the kind it is routed by, and the frame the
bytes stand for. -/
structure EncodedFrame where
  kind : Option EventKind
  bytes : StreamFrame

namespace EncodedFrame

def encode (frame : StreamFrame) : EncodedFrame := ⟨frame.eventKind, frame⟩

def passes (f : EncodedFrame) (kinds : Option (List EventKind)) : Bool :=
  match f.kind, kinds with
  | _, none => true
  | none, some _ => true
  | some k, some ks => ks.contains k

/-- A subscriber's filter holds back events only. -/
theorem event_of_not_passes {frame : StreamFrame} {kinds : Option (List EventKind)}
    (held : (encode frame).passes kinds = false) :
    ∃ e ks, frame = .event e ∧ kinds = some ks ∧ e.kind ∉ ks := by
  cases kinds with
  | none => simp [passes] at held
  | some ks =>
    cases frame with
    | event e =>
      refine ⟨e, ks, rfl, rfl, ?_⟩
      simpa [passes, encode, StreamFrame.eventKind] using held
    | ready | gap | observing | probing | error =>
      simp [passes, encode, StreamFrame.eventKind] at held

end EncodedFrame

/-- One boundary value, built once for its two sinks: the bus and the record. -/
inductive BoundaryEdge where
  | observing (e : ObservingEdge)
  | probing (e : ProbingEdge)
deriving DecidableEq

namespace BoundaryEdge

def tsUs : BoundaryEdge → Int
  | observing e => e.tsUs
  | probing e => e.tsUs

def frame : BoundaryEdge → StreamFrame
  | observing e => .observing e
  | probing e => .probing e

def observing? : BoundaryEdge → Option ObservingEdge
  | observing e => some e
  | probing _ => none

def probing? : BoundaryEdge → Option ProbingEdge
  | observing _ => none
  | probing e => some e

end BoundaryEdge

/-- The boundary edge a frame carries, if it is one. -/
def StreamFrame.edge? : StreamFrame → Option BoundaryEdge
  | .observing e => some (.observing e)
  | .probing e => some (.probing e)
  | .ready _ | .event _ | .gap _ | .error _ => none

@[simp] theorem BoundaryEdge.edge?_frame (e : BoundaryEdge) : e.frame.edge? = some e := by
  cases e <;> rfl

end NetObserver
