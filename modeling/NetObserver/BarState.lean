import NetObserver.StreamFrames

/-! The status item of the menu bar: what it makes of a snapshot, of how the fetch went and of the
age of what was measured. -/

namespace NetObserver.Bar

open Machine

/-- The daemon's answer to `status`, as far as the status item reads it. -/
structure StatusSnapshot where
  generatedUs : Int
  link : Option LinkSample
  proxy : Option ProxySample
  host : Option HostSample
  incidents : List IncidentSummary
  observing : Bool
  probing : ProbingTier

def StatusSnapshot.empty : StatusSnapshot := ⟨0, none, none, none, [], true, .active⟩

inductive GlanceError where
  | unreachable (message : String)
  | protocol (message : String)
deriving DecidableEq

inductive Health where
  | noData
  | ok
  | bad
deriving DecidableEq

inductive State where
  | offline (e : String)
  | badAnswer (e : String)
  | paused
  | stale (ageS : Int)
  | live (h : Health)
deriving DecidableEq

def staleAfterUs : Int := 30000000

def StatusSnapshot.tunCode (snap : StatusSnapshot) : Option Nat := snap.proxy.bind (·.tunCode)

def health (snap : StatusSnapshot) : Health :=
  if snap.link.isNone && snap.proxy.isNone then .noData
  else if snap.link.any fun l => l.gw == .skip then
    -- the echo was withheld: only a tun that was measured can be at fault
    match snap.tunCode with
    | none => .noData
    | some code => if code = 204 then .noData else .bad
  else if (snap.link.any fun l => l.gw == .ok) && snap.tunCode == some 204 then .ok
  else .bad

def newestHealthTickUs (snap : StatusSnapshot) : Option Int :=
  ([snap.link.map (·.tsUs), snap.proxy.map (·.tsUs)].filterMap id).max?

def staleAgeS (snap : StatusSnapshot) (resumeSeenUs : Option Int) (nowUs : Int) : Option Int :=
  (newestHealthTickUs snap).bind fun newest =>
    let anchor := resumeSeenUs.elim newest fun resumed => max newest resumed
    let ageUs := satSub nowUs anchor
    if staleAfterUs < ageUs then some (ageUs / 1000000) else none

def state (error : Option GlanceError) (snap : StatusSnapshot) (resumeSeenUs : Option Int)
    (nowUs : Int) : State :=
  match error with
  | some (.unreachable e) => .offline e
  | some (.protocol e) => .badAnswer e
  | none =>
    if snap.observing then
      match staleAgeS snap resumeSeenUs nowUs with
      | some ageS => .stale ageS
      | none => .live (health snap)
    else .paused

def noVerdictReason (snap : StatusSnapshot) : String :=
  match snap.link with
  | none => "no link or proxy tick yet"
  | some _ =>
    match snap.probing with
    | .passive => "probing passive"
    | .active => "gateway probe did not run"

def headline (snap : StatusSnapshot) : String :=
  if health snap ≠ .noData then "net-observer"
  else
    let reason := noVerdictReason snap
    match snap.link with
    | none => "no verdict — " ++ reason
    | some _ =>
      let tun := match snap.tunCode with
        | none => "tun not probed"
        | some code => "tun " ++ toString code
      "no verdict — " ++ reason ++ " (gw SKIP, " ++ tun ++ ")"

def tcpToken : TcpVerdict → String
  | .ok => "OK"
  | .fail => "FAIL"
  | .skip => "SKIP"

def urltestLabel (p : ProxySample) (nowUs : Int) : Option String :=
  p.urltestNode.map fun node =>
    let ageS (sinceUs : Int) := max (satSub nowUs sinceUs) 0 / 1000000
    match p.urltestMs, p.urltestAtUs, p.urltestAbsentSinceUs with
    | some ms, some atUs, _ => node ++ ":" ++ toString ms ++ "ms@" ++ toString (ageS atUs) ++ "s"
    | _, _, some sinceUs => node ++ ":absent@" ++ toString (ageS sinceUs) ++ "s"
    | _, _, _ => node ++ ":-"

def linkLine : Option LinkSample → String
  | some l => "link   gw=" ++ l.gw.token ++ " direct=" ++ tcpToken l.direct ++ " ts_us=" ++
      toString l.tsUs ++ "\n"
  | none => "link   (no data)\n"

def proxyLine (generatedUs : Int) : Option ProxySample → String
  | some p =>
    let tun := (p.tunCode.map toString).getD "-"
    let sel := p.selector.getD "-"
    let urltest := (urltestLabel p generatedUs).getD "-"
    "proxy  tun=" ++ tun ++ " selector=" ++ sel ++ " urltest=" ++ urltest ++ " ts_us=" ++
      toString p.tsUs ++ "\n"
  | none => "proxy  (no data)\n"

def incidentLine (i : IncidentSummary) : String :=
  "  " ++ i.triggerId ++ " opened=" ++ toString i.openedUs ++ " closed=" ++
    (i.closedUs.map toString).getD "open" ++ "\n"

def renderBody (snap : StatusSnapshot) : String :=
  linkLine snap.link ++ proxyLine snap.generatedUs snap.proxy ++
    if snap.incidents.isEmpty then "incidents (none)\n"
    else "incidents\n" ++ String.join (snap.incidents.map incidentLine)

def offlineGlyph : String := "⚫"

def statusDot (snap : StatusSnapshot) : String :=
  match health snap with
  | .noData => "◌"
  | .ok => "🟢"
  | .bad => "🔴"

structure Presentation where
  glyph : String
  tooltipHead : String
  tooltipBody : Option String

def presentation (error : Option GlanceError) (snap : StatusSnapshot) (resumeSeenUs : Option Int)
    (nowUs : Int) : Presentation :=
  match state error snap resumeSeenUs nowUs with
  | .offline e => ⟨offlineGlyph, "net-observer offline\n" ++ e, none⟩
  | .badAnswer e => ⟨"⚠", "net-observer: daemon reachable, but its answer failed\n" ++ e, none⟩
  | .paused => ⟨"⏸", "paused", some (renderBody snap)⟩
  | .stale ageS =>
    ⟨offlineGlyph, "net-observer offline\nlast tick " ++ toString ageS ++ " s ago", none⟩
  | .live _ => ⟨statusDot snap, headline snap, some (renderBody snap)⟩

/-- A column of the sparkline: what was not measured is a gap, never a zero. -/
structure HistoryPoint where
  gwRttMs : Option F64
  load1 : Option F64
deriving DecidableEq

def historyPoint (snap : StatusSnapshot) : State → HistoryPoint
  | .live _ =>
    { gwRttMs := snap.link.bind fun l => if l.gw = .ok then l.gwRttMs else none
      load1 := snap.host.map (·.load1) }
  | .offline _ | .badAnswer _ | .paused | .stale _ => ⟨none, none⟩

def historyLen : Nat := 120

/-- The bar's model of the daemon: the last snapshot, how the last fetch went and its own memory
of the last resume. -/
structure Glance where
  snapshot : StatusSnapshot
  error : Option GlanceError
  resumeSeenUs : Option Int
  controlMsg : Option String
  history : List HistoryPoint

namespace Glance

def new (snapshot : StatusSnapshot) (error : Option GlanceError) : Glance :=
  ⟨snapshot, error, none, none, []⟩

def state (g : Glance) (nowUs : Int) : State := Bar.state g.error g.snapshot g.resumeSeenUs nowUs

def applyRead (g : Glance) (fresh : Except GlanceError StatusSnapshot) (nowUs : Int) : Glance :=
  match fresh with
  | .ok s =>
    { g with
      resumeSeenUs := if !g.snapshot.observing && s.observing then some nowUs else g.resumeSeenUs
      snapshot := s
      error := none }
  | .error e => { g with error := some e }

def recordTick (g : Glance) (nowUs : Int) : Glance :=
  let kept := if g.history.length = historyLen then g.history.drop 1 else g.history
  { g with history := kept ++ [historyPoint g.snapshot (g.state nowUs)] }

def applyToggleResult (g : Glance) (control : Except String ControlResult)
    (fresh : Except GlanceError StatusSnapshot) (nowUs : Int) : Glance :=
  let line := match control with
    | .ok result => (if result.ok then "ok" else "failed") ++ ": " ++ result.message
    | .error e => "failed: " ++ e
  { g with controlMsg := some line }.applyRead fresh nowUs

/-- The status item as it hangs in the menu bar. -/
def shown (g : Glance) (nowUs : Int) : Presentation :=
  presentation g.error g.snapshot g.resumeSeenUs nowUs

end Glance

/-- What reaches the model: a refresh of the timer, which draws a column after its read, the
manual refresh, and the outcome of a control round trip with the read that follows it. -/
inductive GlanceStep where
  | tick (fresh : Except GlanceError StatusSnapshot) (readUs drawnUs : Int)
  | refresh (fresh : Except GlanceError StatusSnapshot) (nowUs : Int)
  | outcome (control : Except String ControlResult) (fresh : Except GlanceError StatusSnapshot)
      (nowUs : Int)

namespace GlanceStep

def read : GlanceStep → Except GlanceError StatusSnapshot
  | .tick fresh _ _ | .refresh fresh _ | .outcome _ fresh _ => fresh

def readUs : GlanceStep → Int
  | .tick _ nowUs _ | .refresh _ nowUs | .outcome _ _ nowUs => nowUs

def snapshot? (label : GlanceStep) : Option (StatusSnapshot × Int) :=
  match label.read with
  | .ok s => some (s, label.readUs)
  | .error _ => none

end GlanceStep

def Glance.step (g : Glance) : GlanceStep → Glance
  | .tick fresh readUs drawnUs => (g.applyRead fresh readUs).recordTick drawnUs
  | .refresh fresh nowUs => g.applyRead fresh nowUs
  | .outcome control fresh nowUs => g.applyToggleResult control fresh nowUs

end NetObserver.Bar
