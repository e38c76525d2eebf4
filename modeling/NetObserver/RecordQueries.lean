import NetObserver.Diagnosis
import NetObserver.NeighborRoster

/-! The whole record, with the tables a retention may prune, and the queries over it. -/

namespace NetObserver

open Machine Relational

/-- A row of `probing_edge`; one written before the column existed has no reason. -/
structure ProbingEdgeRow where
  tsUs : Int
  tier : ProbingTier
  peerUid : Option Nat
  reason : Option ProbingReason

structure AirSampleRow where
  tsUs : Int
  air : AirVerdict
  reason : Option String
  apCount : Nat

structure AirApRow where
  tsUs : Int
  ap : AirObservation

/-- A row of `connection_sample`; a tick without flows has one that carries only its verdict. -/
structure ConnectionSampleRow where
  tsUs : Int
  verdict : ConnectionsVerdict
  row : Option ConnectionRow

structure RecordPruneRow where
  tsUs : Int
  table : String
  cutoffUs : Int
  deleted : Nat

structure Database where
  record : RecordTables
  probingEdge : List ProbingEdgeRow
  wifiSample : List WifiSample
  airSample : List AirSampleRow
  airAp : List AirApRow
  neighborSample : List NeighborSampleRow
  connectionSample : List ConnectionSampleRow
  singboxLogSample : List SingboxLogSample
  portalSample : List PortalSample
  recordPrune : List RecordPruneRow

def GapCause.token : GapCause → String
  | .pause => "pause"
  | .stop => "stop"
  | .sleep => "sleep"

def PointKind.token : PointKind → String
  | .sample => "sample"
  | .pause => "pause"
  | .resume => "resume"
  | .startup => "startup"

/-- A bracketed silence: a gap of one of the three kinds, or a passive stretch. -/
structure SilenceRow where
  kind : String
  gapOpenedUs : Int
  gapClosedUs : Option Int
  gapClosedBy : Option String

def ObservationGap.silence (g : ObservationGap) : SilenceRow :=
  ⟨g.cause.token, g.gapOpenedUs, g.gapClosedUs, g.gapClosedBy.map PointKind.token⟩

/-- What an active edge says it closed a stretch by. -/
def ProbingEdgeRow.closedBy (e : ProbingEdgeRow) : String :=
  match e.reason with
  | some .experimentEnd => "experiment"
  | some .startup => "startup"
  | some .control => "active"
  | some .experiment | none => if e.peerUid.isNone then "startup" else "active"

/-- The passive edges whose predecessor is not passive. -/
def stretchOpeners (edges : List ProbingEdgeRow) : List Int :=
  (lagOver ProbingEdgeRow.tsUs edges).filterMap fun row =>
    if row.2.tier = .passive ∧ row.1.all fun prev => prev.tier ≠ .passive then some row.2.tsUs
    else none

def stretchOrder (row : Int × Option ProbingEdgeRow) : WithTop Int :=
  row.2.elim ⊤ fun e => (e.tsUs : WithTop Int)

/-- One row per stretch in which every probe was withheld; only an active edge closes it. -/
def probingStretch (edges : List ProbingEdgeRow) : List SilenceRow :=
  (firstOfEach Prod.fst stretchOrder
    (leftJoin (fun opened e => opened < e.tsUs) (stretchOpeners edges)
      (edges.filter fun e => e.tier == .active))).map fun row =>
    ⟨"passive", row.1, row.2.map ProbingEdgeRow.tsUs, row.2.map ProbingEdgeRow.closedBy⟩

inductive EpisodeVerdict where
  | link
  | vless
  | unknown
  | starvation
  | wedge
deriving DecidableEq

structure EpisodeRow where
  episode : Nat
  openedUs : Int
  closedUs : Int
  ticks : Nat
  maxLoad1 : Option F64
  verdict : EpisodeVerdict

/-- A dead tick with what was joined to it. -/
structure DeadTick where
  tick : ProxyTickRow
  episode : Nat
  host : Option HostSample
  link : Option LinkSample

/-- The database's maximum, a NaN above every number. -/
def maxLoad (loads : List F64) : Option F64 :=
  loads.foldl (fun top load => some (top.elim load fun t => if loadAbove load t then load else t))
    none

def numberEpisodes (gapUs : Int) : Nat → List (Option ProxyTickRow × ProxyTickRow) →
    List (ProxyTickRow × Nat)
  | _, [] => []
  | n, (prev, t) :: rest =>
    let episode := if prev.all fun a => gapUs < t.tsUs - a.tsUs then n + 1 else n
    (t, episode) :: numberEpisodes gapUs episode rest

def episodeVerdict (loadThreshold : F64) (rows : List DeadTick) : EpisodeVerdict :=
  if rows.any fun d => d.link.any fun l => l.gw == .fail || l.gw == .noGw then .link
  else if rows.any fun d => d.tick.vless == some .fail then .vless
  else if rows.any fun d => d.link.all fun l => l.gw != .ok || l.direct != .ok then .unknown
  else if rows.all fun d => d.host.isNone then .unknown
  else if (maxLoad (rows.filterMap fun d => d.host.map HostSample.load1)).any
      (loadAbove · loadThreshold) ∧
      (rows.filterMap fun d => d.tick.tunCode).max? = some 0 then .starvation
  else .wedge

def episodeRow (loadThreshold : F64) (episode : Nat) (rows : List DeadTick) : Option EpisodeRow :=
  match rows with
  | [] => none
  | first :: rest => some
    { episode := episode
      openedUs := rest.foldl (fun t d => min t d.tick.tsUs) first.tick.tsUs
      closedUs := rest.foldl (fun t d => max t d.tick.tsUs) first.tick.tsUs
      ticks := rows.length
      maxLoad1 := maxLoad (rows.filterMap fun d => d.host.map HostSample.load1)
      verdict := episodeVerdict loadThreshold rows }

namespace RecordTables

def deadTicks (r : RecordTables) : List ProxyTickRow :=
  r.proxyTick.filter fun t => t.tunCode.any fun code => code != 204

def deadContext (gapUs : Int) (r : RecordTables) : List DeadTick :=
  (numberEpisodes gapUs 0 (lagOver ProxyTickRow.tsUs r.deadTicks)).map fun row =>
    ⟨row.1, row.2, asOf HostSample.tsUs r.hostSample row.1.tsUs,
      asOf LinkSample.tsUs r.linkSample row.1.tsUs⟩

/-- The runs of dead proxy ticks, each named by what was wrong with it. -/
def wedgeVsStarvation (loadThreshold : F64) (gapUs : Int) (r : RecordTables) : List EpisodeRow :=
  let ctx := r.deadContext gapUs
  (((ctx.map DeadTick.episode).dedup.filterMap fun episode =>
    episodeRow loadThreshold episode (ctx.filter fun d => d.episode == episode))).insertionSort
      fun a b => a.openedUs ≤ b.openedUs

def gwDown (v : GwVerdict) : Bool := v == .fail || v == .noGw

/-- The first link sample of each run without a gateway, skips left out. -/
def gwDrops (r : RecordTables) : List (Int × GwVerdict) :=
  (lagOver LinkSample.tsUs (r.linkSample.filter fun l => l.gw != .skip)).filterMap fun row =>
    if gwDown row.2.gw && row.1.all fun prev => !gwDown prev.gw then some (row.2.tsUs, row.2.gw)
    else none

end RecordTables

def singboxLogNearUs : Int := 30000000

def singboxLogNearMax : Nat := 5

def portalNearUs : Int := 90000000

def portalNearMax : Nat := 3

def PortalVerdict.token : PortalVerdict → String
  | .ok => "OK"
  | .portal => "PORTAL"
  | .skip => "SKIP"

/-- `string_agg` with newlines; over no rows it is null. -/
def stringAgg (lines : List String) : Option String :=
  if lines.isEmpty then none else some ("\n".intercalate lines)

/-- Newest first, ties by class and node; a node that is null sorts last. -/
def SingboxLogSample.nearOrder (a b : SingboxLogSample) : Bool :=
  if a.tsUs ≠ b.tsUs then b.tsUs < a.tsUs
  else if a.logClass ≠ b.logClass then decide (a.logClass.asStr ≤ b.logClass.asStr)
  else
    match a.node, b.node with
    | _, none => true
    | none, some _ => false
    | some m, some n => decide (m ≤ n)

section

-- `renderTime` is the database's rendering of an instant.
variable (renderTime : Int → String)

def SingboxLogSample.line (s : SingboxLogSample) : String :=
  s.logClass.asStr ++ " ×" ++ toString s.count ++ s.node.elim "" (" via " ++ ·) ++ " at " ++
    renderTime s.tsUs

def PortalSample.line (p : PortalSample) : String :=
  p.verdict.token ++ " on " ++ p.iface ++ p.loginUrl.elim "" (" login " ++ ·) ++
    p.reason.elim "" (fun r => " (" ++ r ++ ")") ++ " at " ++ renderTime p.tsUs

/-- A row of `verdict_at` with its two trailing cells. -/
structure VerdictCells where
  verdict : VerdictRow
  singboxLog : Option String
  portal : Option String

namespace Database

def singboxLogLines (db : Database) (tsUs : Int) : Option String :=
  stringAgg <| (((db.singboxLogSample.filter fun s =>
    tsUs - singboxLogNearUs ≤ s.tsUs ∧ s.tsUs ≤ tsUs + singboxLogNearUs).mergeSort
      SingboxLogSample.nearOrder).take singboxLogNearMax).map (SingboxLogSample.line renderTime)

def portalLines (db : Database) (tsUs : Int) : Option String :=
  stringAgg <| (((db.portalSample.filter fun p =>
    tsUs - portalNearUs ≤ p.tsUs ∧ p.tsUs ≤ tsUs + portalNearUs).mergeSort
      fun a b => b.tsUs ≤ a.tsUs).take portalNearMax).map (PortalSample.line renderTime)

def verdictAt (loadThreshold : F64) (db : Database) (tsUs : Int) : List VerdictCells :=
  (db.record.verdictAt loadThreshold tsUs).map fun row =>
    ⟨row, db.singboxLogLines renderTime tsUs, db.portalLines renderTime tsUs⟩

/-- Every operator pause, and pauses only. -/
def observationGaps (db : Database) : List (Int × Option Int × Option PointKind) :=
  ((db.record.gaps.filter fun g => g.cause == .pause).insertionSort
    fun a b => a.gapOpenedUs ≤ b.gapOpenedUs).map fun g =>
      (g.gapOpenedUs, g.gapClosedUs, g.gapClosedBy)

/-- Every bracketed silence of the record. -/
def silences (db : Database) : List SilenceRow :=
  (db.record.gaps.map ObservationGap.silence ++ probingStretch db.probingEdge).mergeSort
    fun a b => a.gapOpenedUs < b.gapOpenedUs ||
      (a.gapOpenedUs == b.gapOpenedUs && decide (a.kind ≤ b.kind))

end Database

end

end NetObserver
