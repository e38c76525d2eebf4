import Mathlib.Data.List.Destutter
import Mathlib.Data.List.Sort
import NetObserver.LinkConditions

/-! The conditions on the link's own identity: the access point, its channel, its address. -/

namespace NetObserver

open Machine

def onWifi (l : LinkSample) : Bool := l.medium == some .wifi

/-- The link's own address, a Wi-Fi identity only while the medium is Wi-Fi. -/
def wifiIfMac (l : LinkSample) : Option String := if onWifi l then l.ifMac else none

def wdutilChannel (band : String) (channel widthMhz : Int) : String :=
  let short := match band.toList.head? with
    | some c => String.ofList [c] ++ "g"
    | none => ""
  short ++ toString channel ++ "/" ++ toString widthMhz

def WifiSample.placement (r : WifiSample) : Option (String × Int × Int) := do
  some (← r.channelBand, ← r.channel, ← r.channelWidthMhz)

inductive Address where
  | moved (note : String) (prev : LinkSample)
  | kept (prev : LinkSample)
  | unmeasured

def bssidHop (w : RecentWindow) (recent : List LinkSample) (last : LinkSample) :
    Option (String × LinkSample × LinkProvenance) := do
  let newAp ← last.bssid
  let (prev, provenance) ← measuredPredecessor w recent fun l => l.bssid.isSome
  let oldAp ← prev.bssid
  if oldAp = newAp then none
  else
    let ssid := match prev.ssid, last.ssid with
      | some old, some new => if old ≠ new then ", SSID " ++ old ++ " -> " ++ new else ""
      | _, _ => ""
    some ("BSSID " ++ oldAp ++ " -> " ++ newAp ++ ssid, prev, provenance)

/-- What became of the link's own address, and where its basis was found. -/
def linkAddress (w : RecentWindow) (recent : List LinkSample) (last : LinkSample) :
    Address × Option LinkProvenance :=
  let measured := do
    let newMac ← wifiIfMac last
    let (prev, provenance) ← measuredPredecessor w recent fun l => (wifiIfMac l).isSome
    let oldMac ← prev.ifMac
    some (newMac, oldMac, prev, provenance)
  match measured with
  | none => (.unmeasured, none)
  | some (newMac, oldMac, prev, provenance) =>
    if oldMac = newMac then (.kept prev, some provenance)
    else
      (.moved ("link address " ++ oldMac ++ " -> " ++ newMac ++ " (new DHCP identity)") prev,
        some provenance)

def channelHop (w : RecentWindow) (last prev : LinkSample) : Option String := do
  let newW ← w.wifiAtOrBefore last.tsUs
  let oldW ← w.wifiAtOrBefore prev.tsUs
  let (newBand, newChannel, newWidth) ← newW.placement
  let (oldBand, oldChannel, oldWidth) ← oldW.placement
  if (oldBand, oldChannel, oldWidth) ≠ (newBand, newChannel, newWidth) then
    some ("channel " ++ wdutilChannel oldBand oldChannel oldWidth ++ " -> " ++
      wdutilChannel newBand newChannel newWidth)
  else none

def roam : Condition where
  id := "roam"
  eval w := do
    let last ← w.lastLink
    let recent := w.recentLink gwChangeScan
    let hop := bssidHop w recent last
    let (address, addressFrom) := linkAddress w recent last
    let acrossGap := hop.any (fun h => h.2.2 == .acrossGap) || addressFrom == some .acrossGap
    let addressMoved := match address with
      | .moved .. => true
      | .kept _ | .unmeasured => false
    let (addressStr, basis) : String × Option LinkSample := match hop, address with
      | _, .moved note prev => (note, some ((hop.map fun h => h.2.1).getD prev))
      | some (_, prev, _), .kept _ => ("link address kept", some prev)
      | some (_, prev, _), .unmeasured => ("link address unmeasured", some prev)
      | none, .kept prev => ("link address kept", some prev)
      | none, .unmeasured => ("link address unmeasured", none)
    let channel := basis.bind (channelHop w last)
    if hop.isNone && !addressMoved && channel.isNone then none
    else
      let router := match basis.bind (·.dhcpRouter), last.dhcpRouter with
        | some old, some new => if old ≠ new then "; router " ++ old ++ " -> " ++ new else ""
        | _, _ => ""
      let across := if acrossGap then acrossGapNote else ""
      let lease := match basis.bind (·.leaseStartUs), last.leaseStartUs with
        | some old, some new => if old ≠ new then "lease renewed (fresh DHCP)" else "lease kept"
        | _, _ => "lease unmeasured"
      let start := match hop, channel with
        | some (ap, _), _ => "roam: " ++ ap ++ "; "
        | none, some ch => "roam: " ++ ch ++ "; "
        | none, none => "roam: "
      some ⟨start ++ addressStr ++ router ++ across ++ "; " ++ lease⟩

def wifiChurnMinChanges : Nat := 4

def wifiChurnWindowS : Int := 900

def wifiChurnScan : Nat := banCycleScan

/-- The timestamps at which one identity field changed, over links walked newest first;
`newer` is the last measured value with the timestamp it was measured at. -/
def identityChanges {V : Type*} [DecidableEq V] (horizon : Int) (field : LinkSample → Option V)
    (newer : Option (V × Int)) : List LinkSample → List Int
  | [] => []
  | l :: links =>
    match field l with
    | none => identityChanges horizon field newer links
    | some value =>
      let changed := match newer with
        | some (newerValue, newerTs) =>
          if newerValue ≠ value ∧ horizon ≤ newerTs then [newerTs] else []
        | none => []
      changed ++ identityChanges horizon field (some (value, l.tsUs)) links

def anonymousPlacement (w : RecentWindow) (l : LinkSample) : Option (String × Int × Int) :=
  if onWifi l && l.bssid.isNone then (w.wifiAtOrBefore l.tsUs).bind WifiSample.placement else none

def wifiChurn : Condition where
  id := "wifi-churn"
  eval w := do
    let last ← w.lastLink
    let horizon := satSub last.tsUs (wifiChurnWindowS * 1000000)
    let links := w.recentLink wifiChurnScan
    let bssidChanges := identityChanges horizon (·.bssid) none links
    let macChanges := identityChanges horizon wifiIfMac none links
    let channelChanges := identityChanges horizon (anonymousPlacement w) none links
    let ticks := ((bssidChanges ++ macChanges ++ channelChanges).insertionSort (· ≤ ·)).destutter
      (· ≠ ·)
    let n := ticks.length
    if n < wifiChurnMinChanges then none
    else
      let spanS := (wrapI64 ((← ticks.getLast?) - (← ticks.head?))).tdiv 1000000
      some ⟨"wifi identity churn: " ++ toString n ++ " changes in ~" ++ toString spanS ++
        "s (bssid: " ++ toString bssidChanges.length ++ ", link address: " ++
        toString macChanges.length ++ ", channel: " ++ toString channelChanges.length ++ ")"⟩

end NetObserver
