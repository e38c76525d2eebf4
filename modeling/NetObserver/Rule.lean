import NetObserver.SingboxConditions
import NetObserver.WifiConditions

/-! The rules a trigger can be built from: every condition, alone or behind a gate. -/

namespace NetObserver

open Machine

def gateDirectScan : Nat := 8

def directAnswers (w : RecentWindow) : Bool :=
  ((w.recentLink gateDirectScan).find? fun l => l.direct != .skip).any fun l => l.direct == .ok

def routerUnsettled (settleUs : Int) (w : RecentWindow) : Bool :=
  let links := w.recentLink gwChangeScan
  match links.head? with
  | none => false
  | some newest =>
    let horizon := satSub newest.tsUs settleUs
    let identities := (links.takeWhile fun l => decide (horizon ≤ l.tsUs)).filterMap (·.dhcpRouter)
    match identities with
    | [] => false
    | first :: rest => rest.any (· != first)

def gated (inner : Condition) (requireDirect : Bool) (loadBelow : Option F64)
    (settleUs : Option Int) : Condition where
  id := inner.id
  eval w :=
    if requireDirect && !directAnswers w then none
    else if loadBelow.any fun threshold => w.lastHost.any fun h => threshold.le h.load1 then none
    else if settleUs.any fun settle => routerUnsettled settle w then none
    else inner.eval w

inductive Rule where
  | wedge (consecutive : Nat)
  | gwDrop
  | gwChange
  | gwMacChange
  | roam
  | wifiChurn
  | neighborMacCollision
  | fakeIp
  | starvation (loadThreshold : F64)
  | endpointBlock (consecutive : Nat)
  | perClientBlock
  | banCycle (minBans : Nat)
  | fakeIpHijack
  | establishedStall
  | portal
  | singboxNoRoute
  | singboxDialTimeout
  | endpointDialStall (urltestInterval : Nat)
  | gated (inner : Rule) (requireDirect : Bool) (loadBelow : Option F64) (settleUs : Option Int)

namespace Rule

def condition (localInstant : Int → String) : Rule → Condition
  | wedge consecutive => NetObserver.wedge consecutive
  | gwDrop => NetObserver.gwDrop
  | gwChange => NetObserver.gwChange
  | gwMacChange => NetObserver.gwMacChange
  | roam => NetObserver.roam
  | wifiChurn => NetObserver.wifiChurn
  | neighborMacCollision => NetObserver.neighborMacCollision
  | fakeIp => NetObserver.fakeIp
  | starvation loadThreshold => NetObserver.starvation loadThreshold
  | endpointBlock consecutive => NetObserver.endpointBlock consecutive
  | perClientBlock => NetObserver.perClientBlock
  | banCycle minBans => NetObserver.banCycle minBans
  | fakeIpHijack => NetObserver.fakeIpHijack
  | establishedStall => NetObserver.establishedStall
  | portal => NetObserver.portal
  | singboxNoRoute => NetObserver.singboxNoRoute localInstant
  | singboxDialTimeout => NetObserver.singboxDialTimeout
  | endpointDialStall urltestInterval => NetObserver.endpointDialStall urltestInterval
  | gated inner requireDirect loadBelow settleUs =>
    NetObserver.gated (condition localInstant inner) requireDirect loadBelow settleUs

/-- The three change signatures, alone or behind gates: they compare against the window's
change basis. -/
def readsChangeBasis : Rule → Bool
  | gwChange | gwMacChange | roam => true
  | gated inner _ _ _ => readsChangeBasis inner
  | _ => false

end Rule

end NetObserver
