import NetObserver.ProxyConditions

/-! The conditions on sing-box's own log lines and on the captive portal. -/

namespace NetObserver

open Machine

def singboxLogScan : Nat := 128

def singboxSpanUs : Int := 60000000

def singboxMinLines : Nat := 3

def singboxClearTicks : Nat := 2

def portalScan : Nat := 256

structure SingboxBurst where
  rows : List SingboxLogSample
  newestTsUs : Int
  horizonUs : Int

namespace SingboxBurst

def lines (b : SingboxBurst) : Nat := b.rows.foldl (fun n r => satAddU32 n r.count) 0

def countClass (r : SingboxLogSample) :
    List (SingboxLogClass × Nat) → List (SingboxLogClass × Nat)
  | [] => [(r.logClass, r.count)]
  | (c, n) :: rest =>
    if c = r.logClass then (c, satAddU32 n r.count) :: rest else (c, n) :: countClass r rest

def classes (b : SingboxBurst) : String :=
  let seen := b.rows.foldl (fun seen r => countClass r seen) []
  ", ".intercalate (seen.map fun entry => entry.1.asStr ++ " ×" ++ toString entry.2)

end SingboxBurst

/-- The burst a kind of line is in, none once two links are newer than its newest line. -/
def singboxBurst (w : RecentWindow) (pick : SingboxLogSample → Bool) : Option SingboxBurst := do
  let all := w.recentSingboxLog singboxLogScan
  let newest ← all.find? pick
  let ticksSince := ((w.recentLink singboxClearTicks).filter fun l => newest.tsUs < l.tsUs).length
  if singboxClearTicks ≤ ticksSince then none
  else
    let horizon := satSub newest.tsUs singboxSpanUs
    some ⟨all.filter fun r => pick r && decide (horizon ≤ r.tsUs), newest.tsUs, horizon⟩

def singboxRestartIn (w : RecentWindow) (burst : SingboxBurst) : Option Int :=
  ((w.recentSingboxLog singboxLogScan).find? fun r =>
    r.logClass == .started && decide (burst.horizonUs ≤ r.tsUs) &&
      decide (r.tsUs ≤ burst.newestTsUs)).map (·.tsUs)

def stormFire (burst : SingboxBurst) : Option Fire :=
  if singboxMinLines ≤ burst.lines then
    some ⟨"captive portal suspected: sing-box got a stranger's certificate (" ++
      toString burst.lines ++ " lines in 60 s)"⟩
  else none

def portal : Condition where
  id := "portal"
  eval w :=
    let measured := (w.recentPortal portalScan).find? fun p => p.verdict != .skip
    let storm := singboxBurst w fun r => r.logClass == .tlsCertMismatch
    match measured with
    | some p =>
      if p.verdict = .portal then
        some <| match p.loginUrl with
          | some url => ⟨"captive portal on " ++ p.iface ++ ": login " ++ url⟩
          | none => ⟨"captive portal on " ++ p.iface ++ ": " ++
              p.reason.getD "intercepted without a login page"⟩
      else (storm.filter fun b => decide (p.tsUs < b.newestTsUs)).bind stormFire
    | none => storm.bind stormFire

def isNoRouteClass : SingboxLogClass → Bool
  | .noRoute | .unreachable | .noDefaultIface => true
  | _ => false

/-- `localInstant` renders a timestamp in the system's time zone. -/
def singboxNoRoute (localInstant : Int → String) : Condition where
  id := "singbox-no-route"
  eval w := do
    let last ← w.lastLink
    let router ← last.dhcpRouter
    match last.gw with
    | .fail | .noGw => none
    | .ok | .skip =>
      let burst ← singboxBurst w fun r => isNoRouteClass r.logClass
      let lines := burst.lines
      if lines < singboxMinLines then none
      else
        let detail := "sing-box reports no route (" ++ toString lines ++ " lines in 60 s: " ++
          burst.classes ++ ") while the link holds router " ++ router
        match singboxRestartIn w burst with
        | some restartUs =>
          some ⟨detail ++ " after a sing-box restart at " ++ localInstant restartUs⟩
        | none => some ⟨detail⟩

def nodeEndpoint (tick : List ProxySample) (node : String) : Option (String × TcpVerdict) := do
  let reading ← tick.find? fun r => r.urltestNode == some node
  let endpoint := reading.serverIp
  if endpoint = "-" then none
  else
    let tcp :=
      if isReadingOnly reading then
        ((tick.find? fun r => r.serverIp == endpoint && !isReadingOnly r).map (·.tcp)).getD .skip
      else reading.tcp
    some (endpoint, tcp)

def fleetOk (tick : List ProxySample) : Option Nat :=
  let counted := (tick.filter fun p => !isReadingOnly p).foldl
    (fun count p => match count, p.tcp with
      | some n, .ok => some (n + 1)
      | _, _ => none)
    (some 0)
  counted.filter fun n => decide (1 ≤ n)

/-- Whether the dials through one node time out while raw TCP answers, judged by the ticks. -/
def dialTimeoutOf (w : RecentWindow) (ticks : List (List ProxySample)) (fleet : Option Nat)
    (node : String) : Option Fire := do
  let burst ← singboxBurst w fun r => r.logClass == .dialTimeout && r.node == some node
  let lines := burst.lines
  if lines < singboxMinLines then none
  else
    let stem := "sing-box's dial through " ++ node ++ " times out (" ++ toString lines ++
      " in 60 s) while raw TCP to "
    match ticks.findSome? fun t => nodeEndpoint t node with
    | some (endpoint, .ok) => some ⟨stem ++ endpoint ++ " answers"⟩
    | some (_, .fail) | some (_, .skip) => none
    | none =>
      let endpoints ← fleet
      some ⟨stem ++ "all " ++ toString endpoints ++
        " endpoints answers (the node's own endpoint is not in the window)"⟩

/-- The first node, in the order of the lines, that a judgement holds of; each is judged once. -/
def firstNode (judge : String → Option Fire) (seen : List String) : List String → Option Fire
  | [] => none
  | node :: nodes =>
    if node ∈ seen then firstNode judge seen nodes
    else (judge node).or (firstNode judge (seen ++ [node]) nodes)

def singboxDialTimeout : Condition where
  id := "singbox-dial-timeout"
  eval w := do
    let ticks := (tickRows (w.recentProxy endpointBlockScan)).take 2
    let newest ← ticks.head?
    let fleet := fleetOk newest
    let nodes := ((w.recentSingboxLog singboxLogScan).filter fun r =>
      r.logClass == .dialTimeout).filterMap (·.node)
    firstNode (dialTimeoutOf w ticks fleet) [] nodes

end NetObserver
