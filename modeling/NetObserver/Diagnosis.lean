import Mathlib.Data.Prod.Lex
import NetObserver.HalfOpen
import NetObserver.IncidentViews
import NetObserver.Relational
import NetObserver.Samples

/-! What the diagnosis queries make of the record: its gaps, and the layers around a moment. -/

namespace NetObserver

open Machine Relational

/-- The tables the diagnoses read. An edge stored without a cause is one of the control socket. -/
structure RecordTables where
  linkSample : List LinkSample
  proxySample : List ProxySample
  hostSample : List HostSample
  dnsSample : List DnsSample
  routeEvent : List RouteEvent
  observingEdge : List ObservingEdge
  incident : List Incident

def defaultSleepThresholdUs : Int := 45000000

inductive PointKind where
  | sample
  | pause
  | resume
  | startup
deriving DecidableEq

/-- A recorded instant; of two at one time the one of lower `prio` is taken. -/
structure Point where
  tsUs : Int
  kind : PointKind
  prio : Nat
deriving DecidableEq

def ObservingEdge.kind (e : ObservingEdge) : PointKind :=
  if !e.observing then .pause
  else if e.cause = .startup then .startup
  else .resume

def ObservingEdge.point (e : ObservingEdge) : Point := ⟨e.tsUs, e.kind, 0⟩

inductive GapCause where
  | pause
  | stop
  | sleep
deriving DecidableEq

structure ObservationGap where
  gapOpenedUs : Int
  gapClosedUs : Option Int
  gapClosedBy : Option PointKind
  cause : GapCause
deriving DecidableEq

def ObservationGap.span (g : ObservationGap) : HalfOpen := ⟨g.gapOpenedUs, g.gapClosedUs⟩

/-- It covers the stride from `a` to `b`; one that is still open covers none. -/
def ObservationGap.covers (g : ObservationGap) (a b : Int) : Bool :=
  decide (g.gapOpenedUs ≤ a) && g.gapClosedUs.any fun c => b ≤ c

structure ProxyTickRow where
  tsUs : Int
  vless : Option TcpVerdict
  tunCode : Option Nat

inductive Layer where
  | link
  | unknown
  | vless
  | host
  | proxy
  | healthy
  | gap
deriving DecidableEq

/-- A link sample with the proxy tick and the host sample joined to it. -/
structure LayerState where
  link : LinkSample
  proxy : Option ProxyTickRow
  host : Option HostSample
  layer : Layer

structure VerdictRow where
  state : Option LayerState
  layer : Layer
  gap : Option HalfOpen

structure ContextRow where
  id : String
  triggerId : String
  openedUs : Int
  closedUs : Option Int
  state : Option LayerState
  layer : Option Layer
  gap : Option HalfOpen

structure RampRow where
  tsUs : Int
  usBeforeDrop : Int
  gw : GwVerdict
  gwRttMs : Option F64
  slopeMsPerS : Option F64
  fittedSamples : Option Nat
  observationGapUs : Int

/-- The database orders a NaN above every number. -/
def loadAbove (load threshold : F64) : Bool :=
  match load, threshold with
  | _, .nan => false
  | .nan, _ => true
  | load, threshold => F64.lt threshold load

def diagnosedLayer (loadThreshold : F64) (l : LinkSample) (p : Option ProxyTickRow)
    (h : Option HostSample) : Layer :=
  if l.gw = .fail ∨ l.gw = .noGw then .link
  else if l.gw = .skip ∨ l.direct = .skip then .unknown
  else
    match p.bind ProxyTickRow.vless, p.bind ProxyTickRow.tunCode with
    | none, _ => .unknown
    | some .skip, _ => .unknown
    | _, none => .unknown
    | some .fail, _ => .vless
    | some .ok, some tunCode =>
      if tunCode = 0 ∧ h.isNone then .unknown
      else if tunCode = 0 ∧ h.any (fun h => loadAbove h.load1 loadThreshold) then .host
      else if tunCode ≠ 204 then .proxy
      else if l.gw ≠ .ok ∨ l.direct ≠ .ok then .unknown
      else .healthy

namespace RecordTables

def sampleTs (r : RecordTables) : List Int :=
  r.linkSample.map LinkSample.tsUs ++ r.proxySample.map ProxySample.tsUs ++
    r.hostSample.map HostSample.tsUs ++ r.dnsSample.map DnsSample.tsUs ++
    r.routeEvent.map RouteEvent.tsUs

def samplePoints (r : RecordTables) : List Point := r.sampleTs.map fun ts => ⟨ts, .sample, 1⟩

/-- What can close a pause: an edge back to observing, or any sample. -/
def closers (r : RecordTables) : List Point :=
  (r.observingEdge.filter ObservingEdge.observing).map ObservingEdge.point ++ r.samplePoints

def closingOrder (row : ObservingEdge × Option Point) : WithTop (Int ×ₗ Nat) :=
  row.2.elim ⊤ fun e => (toLex (e.tsUs, e.prio) : Int ×ₗ Nat)

def pauses (r : RecordTables) : List ObservationGap :=
  (firstOfEach (fun row : ObservingEdge × Option Point => row.1.tsUs) closingOrder
    (leftJoin (fun p e => p.tsUs < e.tsUs) (r.observingEdge.filter fun e => !e.observing)
      r.closers)).map fun row => ⟨row.1.tsUs, row.2.map Point.tsUs, row.2.map Point.kind, .pause⟩

/-- Every instant a stride can be anchored to, an edge before a sample at one instant. -/
def points (r : RecordTables) : List Point :=
  firstOfEach Point.tsUs Point.prio (r.samplePoints ++ r.observingEdge.map ObservingEdge.point)

def startups (r : RecordTables) : List ObservingEdge :=
  r.observingEdge.filter fun e => e.observing && e.cause == .startup

/-- Each startup with the newest point before it. -/
def stopsRaw (r : RecordTables) : List (ObservingEdge × Option Point) :=
  r.startups.map fun su => (su, newestBefore Point.tsUs r.points su.tsUs)

/-- The startups that open a stop: where it opens and where it closes. -/
def stopsAnchored (r : RecordTables) : List (Int × Int) :=
  r.stopsRaw.filterMap fun row => row.2.bind fun anchor =>
    if anchor.kind = .pause then none else some (anchor.tsUs, row.1.tsUs)

def stops (r : RecordTables) : List ObservationGap :=
  (firstOfEach Prod.fst Prod.snd r.stopsAnchored).map fun row =>
    ⟨row.1, some row.2, some .startup, .stop⟩

def closedGap (r : RecordTables) : List ObservationGap := r.pauses ++ r.stops

/-- The long strides between consecutive points that no pause or stop already names. -/
def sleeps (sleepThresholdUs : Int) (r : RecordTables) : List ObservationGap :=
  (lagOver Point.tsUs r.points).filterMap fun row => row.1.bind fun a =>
    if sleepThresholdUs < row.2.tsUs - a.tsUs ∧
        ¬ r.closedGap.any (fun c => c.covers a.tsUs row.2.tsUs) then
      some ⟨a.tsUs, some row.2.tsUs, some row.2.kind, .sleep⟩
    else none

def observationGap (sleepThresholdUs : Int) (r : RecordTables) : List ObservationGap :=
  r.pauses ++ r.stops ++ r.sleeps sleepThresholdUs

def gaps (r : RecordTables) : List ObservationGap := r.observationGap defaultSleepThresholdUs

def gapAt (r : RecordTables) (tsUs : Int) : Option ObservationGap :=
  newestOf ObservationGap.gapOpenedUs (r.gaps.filter fun g => g.span.Contains tsUs)

/-- The servers' rows of a tick as one; its code is tunnel-wide. -/
def proxyTick (r : RecordTables) : List ProxyTickRow :=
  (r.proxySample.map ProxySample.tsUs).dedup.map fun ts =>
    let rows := r.proxySample.filter fun p => p.tsUs = ts
    let vless :=
      if rows.any (·.tcp == .ok) then some TcpVerdict.ok
      else if rows.any (·.tcp == .fail) then some .fail
      else if rows.any (·.tcp == .skip) then some .skip
      else none
    ⟨ts, vless, (rows.filterMap ProxySample.tunCode).max?⟩

def layerState (loadThreshold : F64) (r : RecordTables) : List LayerState :=
  r.linkSample.map fun l =>
    let p := asOf ProxyTickRow.tsUs r.proxyTick l.tsUs
    let h := asOf HostSample.tsUs r.hostSample l.tsUs
    ⟨l, p, h, diagnosedLayer loadThreshold l p h⟩

def stateAt (loadThreshold : F64) (r : RecordTables) (tsUs : Int) : Option LayerState :=
  asOf (fun s => s.link.tsUs) (r.layerState loadThreshold) tsUs

def verdictAt (loadThreshold : F64) (r : RecordTables) (tsUs : Int) : List VerdictRow :=
  let gap := r.gapAt tsUs
  let state := if gap.isNone then r.stateAt loadThreshold tsUs else none
  state.toList.map (fun s => ⟨some s, s.layer, none⟩) ++
    gap.toList.map fun g => ⟨none, .gap, some g.span⟩

/-- An incident opened in a gap has no context but the gap. -/
def contextRow (loadThreshold : F64) (r : RecordTables)
    (row : Incident × Option ObservationGap) : ContextRow :=
  let s := r.stateAt loadThreshold row.1.openedUs
  ⟨row.1.id, row.1.triggerId, row.1.openedUs, row.1.closedUs,
    if row.2.isNone then s else none,
    if row.2.isNone then s.map LayerState.layer else some .gap,
    row.2.map ObservationGap.span⟩

def incidentContext (loadThreshold : F64) (r : RecordTables) : List ContextRow :=
  ((leftJoin (fun i g => g.span.Contains i.openedUs) r.incident r.gaps).map
    (r.contextRow loadThreshold)).insertionSort fun c d => c.openedUs ≤ d.openedUs

def observationGapUs (r : RecordTables) (dropTsUs windowUs : Int) : Int :=
  (r.gaps.map fun g => g.span.overlap (dropTsUs - windowUs) dropTsUs).sum

/-- The samples of the window before a drop; `regrSlope` is the database's fit, in milliseconds
a second, withheld with its count where the window meets a gap. -/
def gatewayRamp (regrSlope : List (F64 × Int) → Option F64) (r : RecordTables)
    (dropTsUs windowUs : Int) : List RampRow :=
  let win := r.linkSample.filter fun l => l.tsUs ≤ dropTsUs ∧ dropTsUs - windowUs ≤ l.tsUs
  let answered := (win.filter fun l => l.gw = .ok).filterMap fun l =>
    l.gwRttMs.map fun rtt => (rtt, l.tsUs)
  let overlap := r.observationGapUs dropTsUs windowUs
  (win.map fun l => ⟨l.tsUs, dropTsUs - l.tsUs, l.gw, l.gwRttMs,
    if overlap = 0 then regrSlope answered else none,
    if overlap = 0 then some answered.length else none, overlap⟩).insertionSort
      fun c d => c.tsUs ≤ d.tsUs

end RecordTables

end NetObserver
