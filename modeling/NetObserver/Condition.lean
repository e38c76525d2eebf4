import NetObserver.RecentWindow

/-! What a trigger condition is, and the readings several conditions share. -/

namespace NetObserver

structure Fire where
  detail : String
deriving DecidableEq

/-- A pure predicate over the recent window; an edge is detected per condition. -/
structure Condition where
  id : String
  eval : RecentWindow → Option Fire

structure ProxyTick where
  measured : Bool
  tunCode : Option Nat
deriving DecidableEq

namespace ProxyTick

def dead (t : ProxyTick) : Bool := t.tunCode != some 204

def unanswered (t : ProxyTick) : Bool := t.tunCode == some 0

def answered (t : ProxyTick) : Bool :=
  match t.tunCode with
  | some code => code != 0
  | none => false

def ofRows (rows : List ProxySample) : ProxyTick :=
  rows.foldl
    (fun tick r =>
      ⟨tick.measured || r.tunCode.isSome || r.tcp != .skip, max tick.tunCode r.tunCode⟩)
    ⟨false, none⟩

end ProxyTick

/-- The rows cut into ticks: maximal runs of one timestamp. -/
def tickRows (rows : List ProxySample) : List (List ProxySample) :=
  rows.splitBy fun a b => a.tsUs == b.tsUs

def proxyTicks (rows : List ProxySample) : List ProxyTick := (tickRows rows).map ProxyTick.ofRows

def isReadingOnly (p : ProxySample) : Bool := p.tcp == .skip && p.urltestNode.isSome

structure SelectedUrlTest where
  node : String
  endpoint : String
  tcp : TcpVerdict
  absentSinceUs : Option Int

def selectedUrltest (r : ProxySample) : Option SelectedUrlTest :=
  match r.urltestNode with
  | some node =>
    if r.selector = some node then some ⟨node, r.serverIp, r.tcp, r.urltestAbsentSinceUs⟩ else none
  | none => none

/-- For each tick its timestamp and the first reading of the selected node among its rows. -/
def selectedUrltests (rows : List ProxySample) : List (Int × Option SelectedUrlTest) :=
  (tickRows rows).filterMap fun tick =>
    tick.head?.map fun first => (first.tsUs, tick.findSome? selectedUrltest)

/-- The newest earlier link that carries the measurement: in the window first, else the
window's change basis, with where it was found. -/
def measuredPredecessor (w : RecentWindow) (recent : List LinkSample)
    (measured : LinkSample → Bool) : Option (LinkSample × LinkProvenance) :=
  match (recent.drop 1).find? measured with
  | some prev => some (prev, .contiguous)
  | none =>
    match w.prevLinkWithProvenance with
    | none => none
    | some (prev, provenance) => if !measured prev then none else some (prev, provenance)

def acrossGapNote : String := " (across an observation gap)"

end NetObserver
