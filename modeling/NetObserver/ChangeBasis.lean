import NetObserver.RecentWindow

/-! Which link a change is compared against, over whole runs of pushes and clears. -/

namespace NetObserver

open BoundedBuffer

def linksOf (samples : List Sample) : List LinkSample := samples.filterMap Sample.link?

/-- Every sample a run pushed, split at its most recent clear. -/
structure PushHistory where
  before : List Sample
  since : List Sample

def PushHistory.record (h : PushHistory) : WindowOp → PushHistory
  | .push s => ⟨h.before, h.since ++ [s]⟩
  | .clear => ⟨h.before ++ h.since, []⟩

def pushHistory (ops : List WindowOp) : PushHistory := ops.foldl PushHistory.record ⟨[], []⟩

/-- What the change basis has to be, given everything that was pushed. -/
structure ChangeBasisRight (w : RecentWindow) (h : PushHistory) : Prop where
  acrossGap : ∀ l, w.prevLinkWithProvenance = some (l, .acrossGap) →
    (linksOf h.before).getLast? = some l ∧ (linksOf h.since).length = 1
  contiguous : ∀ l, w.prevLinkWithProvenance = some (l, .contiguous) →
    ∃ earlier newest, w.lastLink = some newest ∧ linksOf h.since = earlier ++ [l, newest]
  absent : w.lastLink = none → w.prevLinkWithProvenance = none

/-- A clear that would carry a link on although a newer one was pushed and evicted since:
one link was pushed after the last clear, none is retained, and an older one is carried. -/
def RecentWindow.keepsStaleBasis (w : RecentWindow) : Prop :=
  w.linksSinceClear = 1 ∧ w.lastLink = none ∧ w.carriedLink ≠ none

instance (w : RecentWindow) : Decidable w.keepsStaleBasis :=
  inferInstanceAs (Decidable (_ ∧ _ ∧ _))

structure BasisInvariant (w : RecentWindow) (h : PushHistory) : Prop where
  retained : w.buf.items = evict w.buf.cap h.since
  counted : w.linksSinceClear = min (linksOf h.since).length Machine.u32Max
  carried : ∀ l, w.carriedLink = some l →
    (linksOf h.before).getLast? = some l ∧ (linksOf h.since).length ≤ 1

@[simp] theorem linksOf_append (xs ys : List Sample) : linksOf (xs ++ ys) = linksOf xs ++ linksOf ys :=
  List.filterMap_append

theorem links_newestFirst (w : RecentWindow) :
    w.newestFirst.filterMap Sample.link? = (linksOf w.buf.items).reverse :=
  List.filterMap_reverse

theorem lastLink_eq_getLast (w : RecentWindow) : w.lastLink = (linksOf w.buf.items).getLast? := by
  rw [w.lastLink_eq_head, links_newestFirst, List.head?_reverse]

theorem basisInvariant_new (cap : Nat) : BasisInvariant (RecentWindow.new cap) ⟨[], []⟩ :=
  ⟨rfl, rfl, fun l h => by cases h⟩

theorem basisInvariant_push {w : RecentWindow} {h : PushHistory} (s : Sample)
    (inv : BasisInvariant w h) : BasisInvariant (w.push s) (h.record (.push s)) := by
  have count := inv.counted
  have items : (w.push s).buf.items = evict w.buf.cap (h.since ++ [s]) := by
    change evict w.buf.cap (w.buf.items ++ [s]) = _
    rw [inv.retained, evict_evict_append]
  cases kind : s.isLink with
  | false =>
    obtain ⟨sameCarried, sameCount⟩ := RecentWindow.push_of_not_link (w := w) kind
    have same : linksOf (h.since ++ [s]) = linksOf h.since := by
      simp [linksOf, Sample.link?_of_not_link kind]
    refine ⟨items, ?_, ?_⟩
    · rw [sameCount, count]
      exact congrArg (fun links => min (List.length links) Machine.u32Max) same.symm
    · intro l carried
      rw [sameCarried] at carried
      obtain ⟨newest, few⟩ := inv.carried l carried
      exact ⟨newest, (congrArg List.length same).trans_le few⟩
  | true =>
    obtain ⟨k, rfl⟩ := Sample.exists_link kind
    have longer : (linksOf (h.since ++ [.link k])).length = (linksOf h.since).length + 1 := by
      simp [linksOf, Sample.link?]
    refine ⟨items, ?_, ?_⟩
    · change Machine.satAddU32 w.linksSinceClear 1 = min (linksOf (h.since ++ [.link k])).length _
      rw [count, Machine.satAddU32_min, longer]
    · intro l carried
      by_cases first : w.linksSinceClear = 0
      · rw [(RecentWindow.push_first_link first).1] at carried
        have none : (linksOf h.since).length = 0 := by
          unfold Machine.u32Max at count
          omega
        refine ⟨(inv.carried l carried).1, ?_⟩
        change (linksOf (h.since ++ [.link k])).length ≤ 1
        omega
      · rw [(RecentWindow.push_later_link (Nat.pos_of_ne_zero first)).1] at carried
        cases carried

theorem basisInvariant_clear {w : RecentWindow} {h : PushHistory} (fresh : ¬ w.keepsStaleBasis)
    (inv : BasisInvariant w h) : BasisInvariant w.clearForResume (h.record .clear) := by
  refine ⟨rfl, rfl, ?_⟩
  intro l carried
  refine ⟨?_, Nat.zero_le _⟩
  rw [RecentWindow.clearForResume_carriedLink] at carried
  change (linksOf (h.before ++ h.since)).getLast? = some l
  rw [linksOf_append, List.getLast?_append]
  cases latest : w.lastLink with
  | some newest =>
    have eq : newest = l := by simpa [latest] using carried
    subst eq
    have kept : (linksOf (evict w.buf.cap h.since)).getLast? = some newest := by
      rw [← inv.retained, ← lastLink_eq_getLast, latest]
    obtain ⟨older, split⟩ := (evict_suffix w.buf.cap h.since).filterMap Sample.link?
    have since : (linksOf h.since).getLast? = some newest := by
      rw [linksOf, ← split, List.getLast?_append]
      change ((linksOf (evict w.buf.cap h.since)).getLast?.or _) = _
      rw [kept, Option.some_or]
    rw [since, Option.some_or]
  | none =>
    have carriedBefore : w.carriedLink = some l := by simpa [latest] using carried
    obtain ⟨newest, few⟩ := inv.carried l carriedBefore
    have none : linksOf h.since = [] := by
      have count := inv.counted
      have notOne : w.linksSinceClear ≠ 1 := fun one =>
        fresh ⟨one, latest, by simp [carriedBefore]⟩
      rw [← List.length_eq_zero_iff]
      unfold Machine.u32Max at count
      omega
    rw [none, List.getLast?_nil, Option.none_or, newest]

theorem basisInvariant_apply {w : RecentWindow} {h : PushHistory} (op : WindowOp)
    (fresh : op = .clear → ¬ w.keepsStaleBasis) (inv : BasisInvariant w h) :
    BasisInvariant (op.apply w) (h.record op) := by
  cases op with
  | push s => exact basisInvariant_push s inv
  | clear => exact basisInvariant_clear (fresh rfl) inv

theorem basisInvariant_run {w : RecentWindow} {h : PushHistory} (ops : List WindowOp)
    (fresh : ∀ earlier later, ops = earlier ++ .clear :: later →
      ¬ (runWindow w earlier).keepsStaleBasis)
    (inv : BasisInvariant w h) :
    BasisInvariant (runWindow w ops) (ops.foldl PushHistory.record h) := by
  induction ops generalizing w h with
  | nil => exact inv
  | cons op ops ih =>
    have first : op = .clear → ¬ w.keepsStaleBasis := by
      rintro rfl
      exact fresh [] ops rfl
    refine ih ?_ (basisInvariant_apply op first inv)
    rintro earlier later rfl
    exact fresh (op :: earlier) later rfl

theorem BasisInvariant.basisRight {w : RecentWindow} {h : PushHistory} (inv : BasisInvariant w h) :
    ChangeBasisRight w h := by
  obtain ⟨older, split⟩ := (evict_suffix w.buf.cap h.since).filterMap Sample.link?
  rw [← inv.retained] at split
  change older ++ linksOf w.buf.items = linksOf h.since at split
  have walked := links_newestFirst w
  refine ⟨?_, ?_, ?_⟩
  · intro l basis
    unfold RecentWindow.prevLinkWithProvenance at basis
    split at basis
    next => cases basis
    next newest only =>
      have carried : w.carriedLink = some l := by simpa using basis
      obtain ⟨lastBefore, few⟩ := inv.carried l carried
      refine ⟨lastBefore, ?_⟩
      have one : (linksOf w.buf.items).length = 1 := by
        rw [← List.length_reverse, ← walked, only, List.length_singleton]
      have total := congrArg List.length split
      rw [List.length_append] at total
      omega
    next => cases basis
  · intro l basis
    unfold RecentWindow.prevLinkWithProvenance at basis
    split at basis
    next => cases basis
    next => simp at basis
    next newest prev rest retained =>
      have eq : prev = l := by simpa using basis
      subst eq
      have items : linksOf w.buf.items = rest.reverse ++ [prev, newest] := by
        rw [← List.reverse_reverse (linksOf w.buf.items), ← walked, retained]
        simp
      refine ⟨older ++ rest.reverse, newest, ?_, ?_⟩
      · rw [lastLink_eq_getLast, items]
        simp
      · rw [← split, items, List.append_assoc]
  · intro noLink
    rw [w.lastLink_eq_head, List.head?_eq_none_iff] at noLink
    unfold RecentWindow.prevLinkWithProvenance
    rw [noLink]

/-- In every run whose clears find no stale basis to keep, the basis is the right one. -/
theorem changeBasis_right (cap : Nat) (ops : List WindowOp)
    (fresh : ∀ earlier later, ops = earlier ++ .clear :: later →
      ¬ (runWindow (.new cap) earlier).keepsStaleBasis) :
    ChangeBasisRight (runWindow (.new cap) ops) (pushHistory ops) :=
  (basisInvariant_run ops fresh (basisInvariant_new cap)).basisRight

def evictedBasisRun : List WindowOp :=
  [.push (.link (.gatewayOnly 1 .ok)), .clear, .push (.link (.gatewayOnly 2 .fail)),
    .push (.host (.idle 3)), .clear, .push (.link (.gatewayOnly 4 .fail))]

theorem changeBasis_of_evicted_link :
    (runWindow (.new 1) evictedBasisRun).prevLinkWithProvenance =
        some (.gatewayOnly 1 .ok, .acrossGap) ∧
      ¬ ChangeBasisRight (runWindow (.new 1) evictedBasisRun) (pushHistory evictedBasisRun) := by
  have basis : (runWindow (.new 1) evictedBasisRun).prevLinkWithProvenance =
      some (.gatewayOnly 1 .ok, .acrossGap) := rfl
  refine ⟨basis, fun right => ?_⟩
  have newest := (right.acrossGap _ basis).1
  have actual : (linksOf (pushHistory evictedBasisRun).before).getLast? =
      some (.gatewayOnly 2 .fail) := rfl
  rw [actual] at newest
  exact absurd (congrArg (Option.map LinkSample.tsUs) newest) (by decide)

theorem changeBasis_right_two_sessions :
    ChangeBasisRight
      (runWindow (.new 4) [.push (.link (.gatewayOnly 1 .ok)), .clear,
        .push (.link (.gatewayOnly 2 .fail)), .clear, .push (.link (.gatewayOnly 4 .fail))])
      (pushHistory [.push (.link (.gatewayOnly 1 .ok)), .clear,
        .push (.link (.gatewayOnly 2 .fail)), .clear, .push (.link (.gatewayOnly 4 .fail))]) := by
  refine changeBasis_right 4 _ ?_
  intro earlier later split
  rcases earlier with _ | ⟨op1, _ | ⟨op2, _ | ⟨op3, _ | ⟨op4, _ | ⟨op5, rest⟩⟩⟩⟩⟩
  all_goals simp only [List.nil_append, List.cons_append, List.cons.injEq] at split
  · cases split.1
  · obtain ⟨rfl, -⟩ := split
    decide
  · cases split.2.2.1
  · obtain ⟨rfl, rfl, rfl, -⟩ := split
    decide
  · cases split.2.2.2.2.1
  · simp at split

end NetObserver
