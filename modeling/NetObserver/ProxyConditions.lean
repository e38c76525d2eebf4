import Mathlib.Data.List.Sort
import NetObserver.Condition

/-! The conditions on the proxy's ticks, on the resolver's answers and on the neighbours. -/

namespace NetObserver

open Machine

def fakeipScan : Nat := 16

def wedgeScan : Nat := 64

def endpointBlockScan : Nat := 64

def dialStallScan : Nat := 32

def isRuName (name : String) : Bool := name == "ru" || ".ru".toList.isSuffixOf name.toList

/-- Count dead ticks from the newest on, until one is alive or the count is reached. -/
def wedgeCount (consecutive : Nat) : Nat → List ProxyTick → Option Fire
  | _, [] => none
  | deadTicks, tick :: ticks =>
    if !tick.dead then none
    else if deadTicks + 1 = consecutive then
      some ⟨"tun dead " ++ toString consecutive ++ " ticks, direct OK"⟩
    else wedgeCount consecutive (deadTicks + 1) ticks

def wedge (consecutive : Nat) : Condition where
  id := "wedge"
  eval w :=
    let links := w.recentLink consecutive
    if links.length < consecutive then none
    else if !links.all (fun l => l.direct == .ok) then none
    else wedgeCount consecutive 0 ((proxyTicks (w.recentProxy wedgeScan)).filter (·.measured))

def fakeIp : Condition where
  id := "fakeip"
  eval w :=
    ((w.recentDns fakeipScan).find? fun d => d.verdict == .fakeIp && isRuName d.probe).map fun d =>
      ⟨"fakeip on " ++ d.probe ++ " via " ++ d.server ++ " -> " ++ d.ip.getD "?"⟩

/-- Note that `mac` claims `ip`; the addresses are kept sorted and each claim once. -/
def claimIp (ip mac : String) : List (String × List String) → List (String × List String)
  | [] => [(ip, [mac])]
  | (known, macs) :: rest =>
    if ip = known then (known, if mac ∈ macs then macs else macs ++ [mac]) :: rest
    else if ip < known then (ip, [mac]) :: (known, macs) :: rest
    else (known, macs) :: claimIp ip mac rest

def macsByIp (neighbors : List NeighborObs) : List (String × List String) :=
  neighbors.foldl (fun claims n => claimIp n.ip n.mac claims) []

def neighborMacCollision : Condition where
  id := "neighbor-mac-collision"
  eval w := do
    let last ← w.lastNeighbors
    if last.verdict ≠ .ok then none
    else
      let collisions := ((macsByIp last.neighbors).filter fun claim => 1 < claim.2.length).map
        fun claim => "ip " ++ claim.1 ++ " claimed by " ++
          ", ".intercalate (claim.2.insertionSort (· ≤ ·))
      if collisions.isEmpty then none else some ⟨"; ".intercalate collisions⟩

def starvation (loadThreshold : F64) : Condition where
  id := "starvation"
  eval w := do
    let newestMeasured ← (proxyTicks (w.recentProxy wedgeScan)).find? (·.measured)
    let load1 := (w.lastHost.map (·.load1)).getD .zero
    if newestMeasured.unanswered && F64.lt loadThreshold load1 then
      some ⟨"tun dead under load " ++ load1.fixed2⟩
    else none

structure Cohort where
  tsUs : Int
  rows : Nat
  allFail : Bool

/-- Fold rows, newest first, into cohorts with the oldest at the head; stop once one more
cohort than the judged ones and the newest would begin. -/
def cohortsFrom (consecutive : Nat) : List Cohort → List ProxySample → List Cohort
  | cohorts, [] => cohorts
  | cohorts, p :: rows =>
    if isReadingOnly p then cohortsFrom consecutive cohorts rows
    else
      let fail := p.tcp == .fail
      match cohorts with
      | [] => cohortsFrom consecutive [⟨p.tsUs, 1, fail⟩] rows
      | c :: newer =>
        if c.tsUs = p.tsUs then
          cohortsFrom consecutive (⟨c.tsUs, c.rows + 1, c.allFail && fail⟩ :: newer) rows
        else if consecutive < (c :: newer).length then c :: newer
        else cohortsFrom consecutive (⟨p.tsUs, 1, fail⟩ :: c :: newer) rows

def endpointBlock (consecutive : Nat) : Condition where
  id := "endpoint-block"
  eval w := do
    let last ← w.lastLink
    if last.direct ≠ .ok then none
    else
      let cohorts := (cohortsFrom consecutive [] (w.recentProxy endpointBlockScan)).reverse
      let judged := cohorts.drop 1
      if judged.length < consecutive then none
      else if !judged.all (·.allFail) then none
      else
        let n := (← judged.head?).rows
        some ⟨"all " ++ toString n ++ " endpoints dead from the underlay across " ++
          toString consecutive ++ " ticks while the reference host answers"⟩

def establishedStall : Condition where
  id := "established-stall"
  eval w := do
    let p ← w.lastProxy
    if ← p.estTunAlive then none
    else
      let newest ← (proxyTicks (w.recentProxy wedgeScan)).head?
      if !newest.answered then none
      else
        let tunAge := p.estTunAgeS.getD 0
        let directAge := p.estDirectAgeS.getD 0
        let stalled := "established stream through the tunnel stalled after ~" ++
          toString tunAge ++ "s (fresh OK); "
        match p.estDirectAlive with
        | some true =>
          if tunAge ≤ directAge then
            some ⟨stalled ++ "direct underlay stream survived ~" ++ toString directAge ++
              "s -> endpoint/protocol-scoped"⟩
          else
            some ⟨stalled ++ "direct underlay stream too young to compare (~" ++
              toString directAge ++ "s) -> underlay-ambiguous"⟩
        | some false =>
          some ⟨"established streams through the tunnel and the direct underlay both stalled " ++
            "after ~" ++ toString tunAge ++ "s/~" ++ toString directAge ++
            "s (fresh OK) -> underlay (NAT/radio), not proxy-scoped"⟩
        | none => some ⟨stalled ++ "direct underlay stream unmeasured"⟩

def durationMax : Nat := 18446744073709551615 * 1000000000 + 999999999

def dialStallSlack : Nat := 30 * 1000000000

def dialStallThresholdUs (urltestInterval : Nat) : Int :=
  let threshold := min (min (urltestInterval * 2) durationMax + dialStallSlack) durationMax
  min (threshold / 1000 : Nat) i64Max

def endpointDialStall (urltestInterval : Nat) : Condition where
  id := "endpoint-dial-stall"
  eval w := do
    let rows := w.recentProxy dialStallScan
    let (tsUs, test) ← ((selectedUrltests rows).take 2).findSome? fun tick =>
      tick.2.map fun t => (tick.1, t)
    if test.tcp ≠ .ok then none
    else
      let sinceUs ← test.absentSinceUs
      let absentUs := satSub tsUs sinceUs
      if absentUs < dialStallThresholdUs urltestInterval then none
      else
        some ⟨"sing-box's own test of " ++ test.node ++ " has had no result for " ++
          toString (absentUs.tdiv 60000000) ++ " min while TCP to " ++ test.endpoint ++
          " answers (interval " ++ toString (urltestInterval / 1000000000) ++ " s)"⟩

end NetObserver
