import NetObserver.ChangeBasis
import NetObserver.Rule

/-! What a condition can still see of the time before a clear: two windows are compared. -/

namespace NetObserver

open Machine

def RecentWindow.withoutBasis (w : RecentWindow) : RecentWindow := ⟨w.buf, none, 0⟩

theorem gated_withoutBasis {inner : Condition} {w : RecentWindow} (requireDirect : Bool)
    (loadBelow : Option F64) (settleUs : Option Int)
    (h : inner.eval w.withoutBasis = inner.eval w) :
    (gated inner requireDirect loadBelow settleUs).eval w.withoutBasis =
      (gated inner requireDirect loadBelow settleUs).eval w := by
  change (if requireDirect && !directAnswers w then none
    else if loadBelow.any fun threshold => w.lastHost.any fun s => threshold.le s.load1 then none
    else if settleUs.any fun settle => routerUnsettled settle w then none
    else inner.eval w.withoutBasis) = _
  rw [h]
  rfl

/-- A rule that is no change signature reads the retained samples only. -/
theorem eval_withoutBasis (localInstant : Int → String) {r : Rule}
    (h : r.readsChangeBasis = false) (w : RecentWindow) :
    (r.condition localInstant).eval w.withoutBasis = (r.condition localInstant).eval w := by
  induction r with
  | gwChange => cases h
  | gwMacChange => cases h
  | roam => cases h
  | gated inner requireDirect loadBelow settleUs ih =>
    exact gated_withoutBasis requireDirect loadBelow settleUs (ih h)
  | wedge | gwDrop | wifiChurn | neighborMacCollision | fakeIp | starvation | endpointBlock
  | perClientBlock | banCycle | fakeIpHijack | establishedStall | portal | singboxNoRoute
  | singboxDialTimeout | endpointDialStall => rfl

/-- Two windows that took the same pushes since their last clear. -/
structure SameSinceClear (w v : RecentWindow) : Prop where
  buf : w.buf = v.buf
  counted : w.linksSinceClear = v.linksSinceClear
  basis : 2 ≤ w.linksSinceClear → w.carriedLink = v.carriedLink

theorem sameSinceClear_clear {w v : RecentWindow} (cap : w.buf.cap = v.buf.cap) :
    SameSinceClear w.clearForResume v.clearForResume := by
  refine ⟨?_, rfl, fun many => absurd many (Nat.not_succ_le_zero 1)⟩
  change BoundedBuffer.empty w.buf.cap = BoundedBuffer.empty v.buf.cap
  rw [cap]

theorem sameSinceClear_push {w v : RecentWindow} (s : Sample) (same : SameSinceClear w v) :
    SameSinceClear (w.push s) (v.push s) := by
  have counted := same.counted
  refine ⟨by simp only [RecentWindow.push, same.buf], ?_, ?_⟩
  · simp only [RecentWindow.push, counted]
  · intro many
    cases kind : s.isLink with
    | false =>
      rw [(RecentWindow.push_of_not_link kind).2] at many
      rw [(RecentWindow.push_of_not_link kind).1, (RecentWindow.push_of_not_link kind).1]
      exact same.basis many
    | true =>
      obtain ⟨l, rfl⟩ := Sample.exists_link kind
      by_cases first : w.linksSinceClear = 0
      · rw [(RecentWindow.push_first_link first).2] at many
        exact absurd many (by decide)
      · have later := Nat.pos_of_ne_zero first
        rw [(RecentWindow.push_later_link later).1,
          (RecentWindow.push_later_link (counted ▸ later)).1]

theorem sameSinceClear_pushes {w v : RecentWindow} (pushes : List Sample)
    (same : SameSinceClear w v) :
    SameSinceClear (pushes.foldl RecentWindow.push w) (pushes.foldl RecentWindow.push v) := by
  induction pushes generalizing w v with
  | nil => exact same
  | cons s pushes ih => exact ih (sameSinceClear_push s same)

theorem foldl_push_linksSinceClear {w : RecentWindow} (pushes : List Sample)
    (bound : w.linksSinceClear ≤ u32Max) :
    (pushes.foldl RecentWindow.push w).linksSinceClear =
      min (w.linksSinceClear + (linksOf pushes).length) u32Max := by
  induction pushes generalizing w with
  | nil => exact (Nat.min_eq_left bound).symm
  | cons s pushes ih =>
    rw [List.foldl_cons]
    cases kind : s.isLink with
    | false =>
      have same := (RecentWindow.push_of_not_link (w := w) kind).2
      have links : linksOf (s :: pushes) = linksOf pushes := by
        simp [linksOf, Sample.link?_of_not_link kind]
      rw [ih (same.trans_le bound), same, links]
    | true =>
      obtain ⟨l, rfl⟩ := Sample.exists_link kind
      have counted : (w.push (.link l)).linksSinceClear = satAddU32 w.linksSinceClear 1 := rfl
      have links : (linksOf (.link l :: pushes)).length = (linksOf pushes).length + 1 := rfl
      rw [ih (by rw [counted]; exact Nat.min_le_right _ _), counted, links]
      unfold satAddU32
      omega

/-- Two clears and the same pushes after them: the carried link is gone from the second one
on, and the windows are equal. -/
theorem windows_eq_of_two_links {w v : RecentWindow} (cap : w.buf.cap = v.buf.cap)
    {pushes : List Sample} (two : 2 ≤ (linksOf pushes).length) :
    pushes.foldl RecentWindow.push w.clearForResume =
      pushes.foldl RecentWindow.push v.clearForResume := by
  have same := sameSinceClear_pushes pushes (sameSinceClear_clear cap)
  have counted := foldl_push_linksSinceClear (w := w.clearForResume) pushes (Nat.zero_le _)
  have many : 2 ≤ (pushes.foldl RecentWindow.push w.clearForResume).linksSinceClear := by
    rw [counted]
    unfold u32Max
    omega
  have basis := same.basis many
  have counts := same.counted
  have bufs := same.buf
  generalize pushes.foldl RecentWindow.push w.clearForResume = x at bufs basis counts
  generalize pushes.foldl RecentWindow.push v.clearForResume = y at bufs basis counts
  obtain ⟨buf, carried, count⟩ := x
  obtain ⟨buf', carried', count'⟩ := y
  subst bufs basis counts
  rfl

/-- After a clear the rules see nothing of what came before it: the change signatures once
two links were pushed, every other rule at once. -/
theorem eval_after_clear (localInstant : Int → String) (r : Rule) {w v : RecentWindow}
    (cap : w.buf.cap = v.buf.cap) (pushes : List Sample)
    (enough : r.readsChangeBasis = true → 2 ≤ (linksOf pushes).length) :
    (r.condition localInstant).eval (pushes.foldl RecentWindow.push w.clearForResume) =
      (r.condition localInstant).eval (pushes.foldl RecentWindow.push v.clearForResume) := by
  cases change : r.readsChangeBasis with
  | true => rw [windows_eq_of_two_links cap (enough change)]
  | false =>
    have same := sameSinceClear_pushes pushes (sameSinceClear_clear cap)
    have left := eval_withoutBasis localInstant change
      (pushes.foldl RecentWindow.push w.clearForResume)
    have right := eval_withoutBasis localInstant change
      (pushes.foldl RecentWindow.push v.clearForResume)
    rw [← left, ← right]
    simp only [RecentWindow.withoutBasis, same.buf]

theorem eval_after_clear_gwChange :
    (Rule.gwChange.condition fun _ => "").eval
        ([.link (.gatewayOnly 5 .ok), .link (.gatewayOnly 6 .fail)].foldl RecentWindow.push
          ((RecentWindow.new 4).push (.link (.gatewayOnly 1 .noGw))).clearForResume) =
      (Rule.gwChange.condition fun _ => "").eval
        ([.link (.gatewayOnly 5 .ok), .link (.gatewayOnly 6 .fail)].foldl RecentWindow.push
          (RecentWindow.new 4).clearForResume) :=
  eval_after_clear (fun _ => "") .gwChange rfl
    [.link (.gatewayOnly 5 .ok), .link (.gatewayOnly 6 .fail)] fun _ => Nat.le_refl 2

end NetObserver
