import NetObserver.BoundedBuffer
import NetObserver.Samples

/-! The recent window the trigger conditions read, and its one link carried over a gap. -/

namespace NetObserver

open Machine

def windowCap : Nat := 2048

/-- Whether the previous link was pushed next to the newest one or before a clear. -/
inductive LinkProvenance where
  | contiguous
  | acrossGap
deriving DecidableEq

structure RecentWindow where
  buf : BoundedBuffer Sample
  carriedLink : Option LinkSample
  linksSinceClear : Nat

namespace RecentWindow

def new (cap : Nat) : RecentWindow := ⟨BoundedBuffer.empty cap, none, 0⟩

def push (w : RecentWindow) (s : Sample) : RecentWindow where
  buf := w.buf.push s
  carriedLink := if s.isLink && decide (1 ≤ w.linksSinceClear) then none else w.carriedLink
  linksSinceClear := if s.isLink then satAddU32 w.linksSinceClear 1 else w.linksSinceClear

def newestFirst (w : RecentWindow) : List Sample := w.buf.items.reverse

/-- The links of the window, newest first, all of them. -/
def links (w : RecentWindow) : List LinkSample := w.newestFirst.filterMap Sample.link?

def proxies (w : RecentWindow) : List ProxySample := w.newestFirst.filterMap Sample.proxy?

def recentLink (w : RecentWindow) (n : Nat) : List LinkSample :=
  (w.newestFirst.filterMap Sample.link?).take n

def recentProxy (w : RecentWindow) (n : Nat) : List ProxySample :=
  (w.newestFirst.filterMap Sample.proxy?).take n

def recentDns (w : RecentWindow) (n : Nat) : List DnsSample :=
  (w.newestFirst.filterMap Sample.dns?).take n

def recentSingboxLog (w : RecentWindow) (n : Nat) : List SingboxLogSample :=
  (w.newestFirst.filterMap Sample.singboxLog?).take n

def recentPortal (w : RecentWindow) (n : Nat) : List PortalSample :=
  (w.newestFirst.filterMap Sample.portal?).take n

def lastLink (w : RecentWindow) : Option LinkSample := w.newestFirst.findSome? Sample.link?

def lastProxy (w : RecentWindow) : Option ProxySample := w.newestFirst.findSome? Sample.proxy?

def lastHost (w : RecentWindow) : Option HostSample := w.newestFirst.findSome? Sample.host?

def lastNeighbors (w : RecentWindow) : Option NeighborsSample :=
  w.newestFirst.findSome? Sample.neighbors?

def wifiAtOrBefore (w : RecentWindow) (tsUs : Int) : Option WifiSample :=
  w.newestFirst.findSome? fun s =>
    s.wifi?.filter fun r => decide (r.tsUs ≤ tsUs) && r.channel.isSome

/-- The basis of a change: the retained link before the newest one, else the carried one. -/
def prevLinkWithProvenance (w : RecentWindow) : Option (LinkSample × LinkProvenance) :=
  match w.newestFirst.filterMap Sample.link? with
  | [] => none
  | [_] => w.carriedLink.map fun carried => (carried, .acrossGap)
  | _ :: prev :: _ => some (prev, .contiguous)

def clearForResume (w : RecentWindow) : RecentWindow where
  buf := w.buf.clear
  carriedLink := match w.lastLink with
    | some latest => some latest
    | none => w.carriedLink
  linksSinceClear := 0

theorem lastLink_eq_head (w : RecentWindow) :
    w.lastLink = (w.newestFirst.filterMap Sample.link?).head? :=
  List.head?_filterMap.symm

@[simp] theorem push_cap (w : RecentWindow) (s : Sample) : (w.push s).buf.cap = w.buf.cap := rfl

@[simp] theorem clearForResume_cap (w : RecentWindow) : w.clearForResume.buf.cap = w.buf.cap := rfl

@[simp] theorem clearForResume_items (w : RecentWindow) : w.clearForResume.buf.items = [] := rfl

@[simp] theorem clearForResume_linksSinceClear (w : RecentWindow) :
    w.clearForResume.linksSinceClear = 0 := rfl

theorem clearForResume_carriedLink (w : RecentWindow) :
    w.clearForResume.carriedLink = w.lastLink.or w.carriedLink := by
  unfold clearForResume
  cases w.lastLink <;> rfl

theorem push_of_not_link {w : RecentWindow} {s : Sample} (h : s.isLink = false) :
    (w.push s).carriedLink = w.carriedLink ∧
      (w.push s).linksSinceClear = w.linksSinceClear := by
  simp [push, h]

theorem push_first_link {w : RecentWindow} {l : LinkSample} (h : w.linksSinceClear = 0) :
    (w.push (.link l)).carriedLink = w.carriedLink ∧ (w.push (.link l)).linksSinceClear = 1 := by
  simp [push, h, Sample.isLink, satAddU32, u32Max]

theorem push_later_link {w : RecentWindow} {l : LinkSample} (h : 1 ≤ w.linksSinceClear) :
    (w.push (.link l)).carriedLink = none ∧ 1 ≤ (w.push (.link l)).linksSinceClear := by
  have saturated : 1 ≤ satAddU32 w.linksSinceClear 1 := by
    unfold satAddU32 u32Max
    omega
  simp [push, h, Sample.isLink, saturated]

end RecentWindow

/-- What the consumer does to the window: one more sample, or the clear at a session edge. -/
inductive WindowOp where
  | push (s : Sample)
  | clear

def WindowOp.apply (w : RecentWindow) : WindowOp → RecentWindow
  | .push s => w.push s
  | .clear => w.clearForResume

def runWindow (w : RecentWindow) (ops : List WindowOp) : RecentWindow :=
  ops.foldl WindowOp.apply w

end NetObserver
