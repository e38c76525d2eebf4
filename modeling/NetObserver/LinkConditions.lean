import NetObserver.Condition
import NetObserver.Mac

/-! The conditions on the gateway: its verdict, its address, its neighbours and its route. -/

namespace NetObserver

open Machine

def gwChangeScan : Nat := 64

def gwDrop : Condition where
  id := "gw-drop"
  eval w :=
    match w.lastLink with
    | none => none
    | some last =>
      match last.gw with
      | .fail | .noGw => some ⟨"gateway " ++ last.gw.token⟩
      | .ok | .skip => none

def gwChange : Condition where
  id := "gw-change"
  eval w :=
    match w.lastLink with
    | none => none
    | some last =>
      if last.gw = .skip then none
      else
        let recent := w.recentLink gwChangeScan
        let withheldRun := ((recent.drop 1).takeWhile fun l => l.gw == .skip).length
        match measuredPredecessor w recent fun l => l.gw != .skip with
        | none => none
        | some (prev, provenance) =>
          let across :=
            match provenance, withheldRun with
            | .acrossGap, _ => acrossGapNote
            | .contiguous, 0 => ""
            | .contiguous, n => " (across " ++ toString n ++ " withheld tick(s))"
          if last.gw ≠ prev.gw then
            some ⟨"gateway " ++ prev.gw.token ++ " -> " ++ last.gw.token ++ across⟩
          else none

theorem gwChange_isSome_iff (w : RecentWindow) :
    (gwChange.eval w).isSome ↔ ∃ last prev provenance, w.lastLink = some last ∧ last.gw ≠ .skip ∧
      measuredPredecessor w (w.recentLink gwChangeScan) (fun l => l.gw != .skip) =
        some (prev, provenance) ∧ last.gw ≠ prev.gw := by
  simp only [gwChange]
  cases newest : w.lastLink with
  | none => simp
  | some last =>
    by_cases skipped : last.gw = .skip
    · simp [skipped]
    · cases basis : measuredPredecessor w (w.recentLink gwChangeScan) fun l => l.gw != .skip with
      | none => simp
      | some found =>
        obtain ⟨prev, provenance⟩ := found
        by_cases same : last.gw = prev.gw <;> simp [skipped, same]

def hasRouterMac (l : LinkSample) : Bool :=
  l.dhcpRouter.isSome && (l.gwArpMac.bind normalizeMac).isSome

def gwMacChange : Condition where
  id := "gw-mac-change"
  eval w := do
    let last ← w.lastLink
    let lastRouter ← last.dhcpRouter
    let lastMac ← normalizeMac (← last.gwArpMac)
    let recent := w.recentLink gwChangeScan
    let unreadable := ((recent.drop 1).takeWhile fun l => !hasRouterMac l).length
    let (prev, provenance) ← measuredPredecessor w recent hasRouterMac
    let prevRouter ← prev.dhcpRouter
    let prevMac ← normalizeMac (← prev.gwArpMac)
    if lastRouter ≠ prevRouter then none
    else if lastMac = prevMac then none
    else
      let across :=
        match provenance, unreadable with
        | .acrossGap, _ => acrossGapNote
        | .contiguous, 0 => ""
        | .contiguous, n => " (across " ++ toString n ++ " tick(s) without an ARP entry)"
      some ⟨"gateway " ++ lastRouter ++ " mac " ++ prevMac ++ " -> " ++ lastMac ++ across⟩

def perClientBlock : Condition where
  id := "per-client-block"
  eval w := do
    let last ← w.lastLink
    match last.gw with
    | .fail =>
      let probed ← last.lanProbed
      let alive ← last.lanAlive
      if probed = 0 ∨ alive = 0 then none
      else
        some ⟨"gateway silent while " ++ toString alive ++ "/" ++ toString probed ++
          " LAN neighbors answer"⟩
    | .ok | .noGw | .skip => none

def banCycleScan : Nat := 160

def banMinRunTicks : Nat := 2

def banMinPeriodS : Int := 60

/-- The silent run a scan from the newest link is in: its oldest tick so far, its length,
and whether a tick of it failed outright. -/
structure BanRun where
  startUs : Int
  ticks : Nat
  failed : Bool

/-- One link of the newest-first scan: a silent tick extends the run, an answer closes it. -/
def banCycleStep (acc : List Int × Option BanRun) (l : LinkSample) : List Int × Option BanRun :=
  match l.gw with
  | .fail | .noGw =>
    match acc.2 with
    | some run => (acc.1, some ⟨l.tsUs, run.ticks + 1, run.failed || l.gw == .fail⟩)
    | none => (acc.1, some ⟨l.tsUs, 1, l.gw == .fail⟩)
  | .ok =>
    match acc.2 with
    | some run =>
      if banMinRunTicks ≤ run.ticks ∧ run.failed then (acc.1 ++ [run.startUs], none)
      else (acc.1, none)
    | none => (acc.1, none)
  | .skip => acc

def banStarts (links : List LinkSample) : List Int := (links.foldl banCycleStep ([], none)).1

/-- The differences between neighbours of a list, as the release build subtracts them. -/
def banIntervals : List Int → List Int
  | a :: b :: rest => wrapI64 (a - b) :: banIntervals (b :: rest)
  | _ => []

def banCycle (minBans : Nat) : Condition where
  id := "ban-cycle"
  eval w := do
    let starts := banStarts (w.recentLink banCycleScan)
    let n := starts.length
    if n < max minBans 2 then none
    else
      let intervals := banIntervals starts
      let spanUs := wrapI64 ((← starts.head?) - (← starts.getLast?))
      let periodUs := spanUs.tdiv intervals.length
      if periodUs < banMinPeriodS * 1000000 then none
      else
        let minUs := intervals.min?.getD 0
        let maxUs := intervals.max?.getD 0
        let secs := fun us : Int => toString (us.tdiv 1000000)
        some ⟨"gateway ban cycle: " ++ toString n ++ " bans in ~" ++ secs spanUs ++ "s, period ~" ++
          secs periodUs ++ "s (min " ++ secs minUs ++ "s, max " ++ secs maxUs ++ "s)"⟩

def isTunnelOrDiscardIface (name : String) : Bool :=
  ["utun", "tun", "ipsec", "gif", "stf", "lo"].any fun prefixName =>
    prefixName.toList.isPrefixOf name.toList

def fakeIpHijack : Condition where
  id := "fakeip-hijack"
  eval w := do
    let last ← w.lastLink
    let ifname ← last.fakeipRouteIf
    if isTunnelOrDiscardIface ifname then none
    else
      let tunIf ← last.singboxTunIf
      some ⟨"fakeip pool routes via " ++ ifname ++ " while sing-box's TUN is up on " ++ tunIf⟩

end NetObserver
