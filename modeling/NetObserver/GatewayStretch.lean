import NetObserver.ChangeBasis
import NetObserver.LinkConditions

/-! A gateway change across a withheld stretch, with session edges anywhere in it. -/

namespace NetObserver

def linkPushes (ops : List WindowOp) : List LinkSample :=
  ops.filterMap fun
    | .push s => s.link?
    | .clear => none

def KeepsLinks : RecentWindow → List WindowOp → Prop
  | _, [] => True
  | w, .push s :: ops =>
    linksOf (w.push s).buf.items = linksOf (w.buf.items ++ [s]) ∧ KeepsLinks (w.push s) ops
  | w, .clear :: ops => KeepsLinks w.clearForResume ops

/-- What a window still knows of the measured link `m` after some operations that pushed
withheld links only. -/
inductive StretchPhase (m : LinkSample) (w : RecentWindow) (done : List WindowOp) : Prop where
  /-- No clear yet: the link stands in the window, withheld links behind it. -/
  | retained (older skips : List LinkSample) (noClear : .clear ∉ done)
      (links : linksOf w.buf.items = older ++ m :: skips)
      (withheld : ∀ l ∈ skips, l.gw = .skip) (count : skips.length = (linkPushes done).length)
  /-- Cleared before any withheld link: the link is the carried one. -/
  | carried (cleared : .clear ∈ done) (noLink : linkPushes done = [])       (empty : linksOf w.buf.items = []) (basis : w.carriedLink = some m)
      (fresh : w.linksSinceClear = 0)
  /-- A clear and a withheld link: only withheld links are left. -/
  | lost (cleared : .clear ∈ done) (someLink : linkPushes done ≠ [])
      (withheld : ∀ l ∈ linksOf w.buf.items, l.gw = .skip)
      (basis : linksOf w.buf.items = [] → ∀ l, w.carriedLink = some l → l.gw = .skip)
      (counted : linksOf w.buf.items ≠ [] → 1 ≤ w.linksSinceClear)

theorem linkPushes_snoc_clear (done : List WindowOp) :
    linkPushes (done ++ [.clear]) = linkPushes done := by
  simp [linkPushes]

theorem linkPushes_snoc_other {s : Sample} (h : s.isLink = false) (done : List WindowOp) :
    linkPushes (done ++ [.push s]) = linkPushes done := by
  simp [linkPushes, Sample.link?_of_not_link h]

theorem linkPushes_snoc_link (l : LinkSample) (done : List WindowOp) :
    linkPushes (done ++ [.push (.link l)]) = linkPushes done ++ [l] := by
  simp [linkPushes, Sample.link?]

theorem linksOf_snoc_other {s : Sample} (h : s.isLink = false) (xs : List Sample) :
    linksOf (xs ++ [s]) = linksOf xs := by
  simp [linksOf, Sample.link?_of_not_link h]

theorem linksOf_snoc_link (l : LinkSample) (xs : List Sample) :
    linksOf (xs ++ [.link l]) = linksOf xs ++ [l] := by
  simp [linksOf, Sample.link?]

theorem stretchPhase_clear {m : LinkSample} {w : RecentWindow} {done : List WindowOp}
    (phase : StretchPhase m w done) :
    StretchPhase m w.clearForResume (done ++ [.clear]) := by
  have carried := w.clearForResume_carriedLink
  rw [lastLink_eq_getLast] at carried
  cases phase with
  | retained older skips noClear links withheld count =>
    rw [links, List.getLast?_append, List.getLast?_cons] at carried
    rcases List.eq_nil_or_concat skips with none | ⟨front, newest, last⟩
    · refine .carried (by simp) ?_ rfl ?_ rfl
      · rw [linkPushes_snoc_clear, ← List.length_eq_zero_iff, ← count, none, List.length_nil]
      · rw [carried, none]
        rfl
    · rw [List.concat_eq_append] at last
      refine .lost (by simp) ?_ (by simp [linksOf]) ?_ (by simp [linksOf])
      · intro empty
        rw [linkPushes_snoc_clear, ← List.length_eq_zero_iff, ← count, last] at empty
        simp at empty
      · intro _ l basis
        rw [carried, last] at basis
        have eq : newest = l := by simpa using basis
        subst eq
        exact withheld newest (by simp [last])
  | carried cleared noLink empty basis fresh =>
    refine .carried (by simp) ?_ rfl ?_ rfl
    · rw [linkPushes_snoc_clear, noLink]
    · rw [carried, empty, basis]
      rfl
  | lost cleared someLink withheld basis counted =>
    refine .lost (by simp) ?_ (by simp [linksOf]) ?_ (by simp [linksOf])
    · rwa [linkPushes_snoc_clear]
    · intro _ l latest
      rw [carried] at latest
      cases links : (linksOf w.buf.items).getLast? with
      | none =>
        rw [links, Option.none_or] at latest
        exact basis (List.getLast?_eq_none_iff.mp links) l latest
      | some newest =>
        have eq : newest = l := by simpa [links] using latest
        subst eq
        exact withheld newest (List.mem_of_getLast? links)

theorem stretchPhase_push_other {m : LinkSample} {w : RecentWindow} {done : List WindowOp}
    {s : Sample} (kind : s.isLink = false)
    (kept : linksOf (w.push s).buf.items = linksOf (w.buf.items ++ [s]))
    (phase : StretchPhase m w done) : StretchPhase m (w.push s) (done ++ [.push s]) := by
  obtain ⟨sameBasis, sameCount⟩ := RecentWindow.push_of_not_link (w := w) kind
  rw [linksOf_snoc_other kind] at kept
  have pushes := linkPushes_snoc_other kind done
  cases phase with
  | retained older skips noClear links withheld count =>
    exact .retained older skips (by simpa using noClear) (kept.trans links) withheld
      (by rw [pushes, count])
  | carried cleared noLink empty basis fresh =>
    exact .carried (by simp [cleared]) (pushes.trans noLink) (kept.trans empty)
      (sameBasis.trans basis) (sameCount.trans fresh)
  | lost cleared someLink withheld basis counted =>
    refine .lost (by simp [cleared]) (by rwa [pushes]) (by rwa [kept]) ?_ ?_
    · rw [kept, sameBasis]
      exact basis
    · rw [kept, sameCount]
      exact counted

theorem stretchPhase_push_withheld {m l : LinkSample} {w : RecentWindow} {done : List WindowOp}
    (skip : l.gw = .skip)
    (kept : linksOf (w.push (.link l)).buf.items = linksOf (w.buf.items ++ [.link l]))
    (phase : StretchPhase m w done) :
    StretchPhase m (w.push (.link l)) (done ++ [.push (.link l)]) := by
  rw [linksOf_snoc_link] at kept
  have pushes := linkPushes_snoc_link l done
  cases phase with
  | retained older skips noClear links withheld count =>
    refine .retained older (skips ++ [l]) (by simpa using noClear) ?_ ?_ ?_
    · rw [kept, links, List.append_assoc, List.cons_append]
    · intro k mem
      rcases List.mem_append.mp mem with old | new
      · exact withheld k old
      · rw [List.mem_singleton.mp new, skip]
    · rw [pushes, List.length_append, List.length_append, count]
  | carried cleared noLink empty basis fresh =>
    refine .lost (by simp [cleared]) (by simp [pushes]) ?_ ?_ ?_
    · intro k mem
      rw [kept, empty, List.nil_append, List.mem_singleton] at mem
      rw [mem, skip]
    · intro none
      simp [kept] at none
    · intro _
      exact (RecentWindow.push_first_link fresh).2.ge
  | lost cleared someLink withheld basis counted =>
    refine .lost (by simp [cleared]) (by simp [pushes]) ?_ ?_ ?_
    · intro k mem
      rw [kept] at mem
      rcases List.mem_append.mp mem with old | new
      · exact withheld k old
      · rw [List.mem_singleton.mp new, skip]
    · intro none
      simp [kept] at none
    · intro _
      by_cases first : w.linksSinceClear = 0
      · exact (RecentWindow.push_first_link first).2.ge
      · exact (RecentWindow.push_later_link (Nat.pos_of_ne_zero first)).2

theorem stretchPhase_run {m : LinkSample} {w : RecentWindow} {done : List WindowOp}
    (ops : List WindowOp) (withheld : ∀ l ∈ linkPushes ops, l.gw = .skip) (keeps : KeepsLinks w ops)
    (phase : StretchPhase m w done) : StretchPhase m (runWindow w ops) (done ++ ops) := by
  induction ops generalizing w done with
  | nil => rwa [List.append_nil]
  | cons op ops ih =>
    rw [← List.singleton_append, ← List.append_assoc]
    cases op with
    | clear =>
      exact ih withheld keeps (stretchPhase_clear phase)
    | push s =>
      obtain ⟨kept, later⟩ := keeps
      cases kind : s.isLink with
      | false =>
        have rest : ∀ l ∈ linkPushes ops, l.gw = .skip := by
          simpa [linkPushes, Sample.link?_of_not_link kind] using withheld
        exact ih rest later (stretchPhase_push_other kind kept phase)
      | true =>
        obtain ⟨l, rfl⟩ := Sample.exists_link kind
        have both : l.gw = .skip ∧ ∀ k ∈ linkPushes ops, k.gw = .skip := by
          simpa [linkPushes, Sample.link?] using withheld
        exact ih both.2 later (stretchPhase_push_withheld both.1 kept phase)

theorem keepsLinks_append {w : RecentWindow} {ops more : List WindowOp} :
    KeepsLinks w (ops ++ more) ↔ KeepsLinks w ops ∧ KeepsLinks (runWindow w ops) more := by
  induction ops generalizing w with
  | nil => simp [KeepsLinks, runWindow]
  | cons op ops ih =>
    cases op with
    | push s => simp [KeepsLinks, ih, runWindow, WindowOp.apply, and_assoc]
    | clear => simp [KeepsLinks, ih, runWindow, WindowOp.apply]

/-- What `gwChange` finds when the stretch ends with a measured link `f`. -/
theorem gwChange_after_stretch {m f : LinkSample} {w : RecentWindow} {done : List WindowOp}
    (measured : m.gw ≠ .skip) (last : f.gw ≠ .skip) (differs : f.gw ≠ m.gw)
    (few : (linkPushes done).length < 63)
    (kept : linksOf (w.push (.link f)).buf.items = linksOf (w.buf.items ++ [.link f]))
    (phase : StretchPhase m w done) :
    (gwChange.eval (w.push (.link f))).isSome ↔ .clear ∉ done ∨ linkPushes done = [] := by
  rw [linksOf_snoc_link] at kept
  have walked : (w.push (.link f)).newestFirst.filterMap Sample.link? =
      f :: (linksOf w.buf.items).reverse := by
    rw [links_newestFirst, kept, List.reverse_append, List.reverse_singleton, List.singleton_append]
  have newest : (w.push (.link f)).lastLink = some f := by
    rw [RecentWindow.lastLink_eq_head, walked, List.head?_cons]
  have recent : ((w.push (.link f)).recentLink gwChangeScan).drop 1 =
      (linksOf w.buf.items).reverse.take 63 := by
    rw [RecentWindow.recentLink, walked]
    rfl
  rw [gwChange_isSome_iff]
  cases phase with
  | retained older skips noClear links withheld count =>
    refine iff_of_true ⟨f, m, .contiguous, newest, last, ?_, differs⟩ (.inl noClear)
    have room : skips.length + 1 ≤ 63 := by omega
    have reached : (linksOf w.buf.items).reverse.take 63 =
        skips.reverse ++ m :: (older.reverse.take (63 - (skips.length + 1))) := by
      rw [links, List.reverse_append, List.reverse_cons, List.append_assoc, List.singleton_append,
        List.take_append, List.length_reverse,
        List.take_of_length_le (by rw [List.length_reverse]; omega),
        show 63 - skips.length = 63 - (skips.length + 1) + 1 by omega, List.take_succ_cons]
    have found : (((w.push (.link f)).recentLink gwChangeScan).drop 1).find?
        (fun l => l.gw != .skip) = some m := by
      rw [recent, reached, List.find?_append, List.find?_eq_none.mpr, Option.none_or]
      · exact List.find?_cons_of_pos (by simpa using measured)
      · intro l mem
        simp [withheld l (List.mem_reverse.mp mem)]
    unfold measuredPredecessor
    rw [found]
  | carried cleared noLink empty basis fresh =>
    refine iff_of_true ⟨f, m, .acrossGap, newest, last, ?_, differs⟩ (.inr noLink)
    have carriedOn := (RecentWindow.push_first_link (l := f) fresh).1
    unfold measuredPredecessor RecentWindow.prevLinkWithProvenance
    rw [recent, walked, empty, carriedOn, basis]
    simp [measured]
  | lost cleared someLink withheld basis counted =>
    refine iff_of_false ?_ (by simp [cleared, someLink])
    rintro ⟨_, prev, provenance, _, _, found, _⟩
    have nothing : (((w.push (.link f)).recentLink gwChangeScan).drop 1).find?
        (fun l => l.gw != .skip) = none := by
      rw [recent, List.find?_eq_none]
      intro l mem
      simp [withheld l (List.mem_reverse.mp (List.mem_of_mem_take mem))]
    unfold measuredPredecessor RecentWindow.prevLinkWithProvenance at found
    rw [nothing, walked] at found
    cases retained : (linksOf w.buf.items).reverse with
    | nil =>
      have empty := List.reverse_eq_nil_iff.mp retained
      rw [retained] at found
      cases carried : (w.push (.link f)).carriedLink with
      | none => simp [carried] at found
      | some l =>
        have before : w.carriedLink = some l := by
          by_cases first : w.linksSinceClear = 0
          · rwa [(RecentWindow.push_first_link first).1] at carried
          · rw [(RecentWindow.push_later_link (Nat.pos_of_ne_zero first)).1] at carried
            cases carried
        simp [carried, basis empty l before] at found
    | cons l rest =>
      have skip := withheld l (List.mem_reverse.mp (retained ▸ List.mem_cons_self))
      rw [retained] at found
      simp [skip] at found

theorem stretchPhase_start {m : LinkSample} {w : RecentWindow}
    (kept : linksOf (w.push (.link m)).buf.items = linksOf (w.buf.items ++ [.link m])) :
    StretchPhase m (w.push (.link m)) [] := by
  rw [linksOf_snoc_link] at kept
  exact .retained _ [] (by simp) kept (by simp) rfl

/-- A change of the measured verdict across a withheld stretch is found exactly when the
stretch has no session edge in it or no withheld link. -/
theorem gwChange_across_stretch_iff {w : RecentWindow} {m f : LinkSample} {stretch : List WindowOp}
    (measured : m.gw ≠ .skip) (last : f.gw ≠ .skip) (differs : f.gw ≠ m.gw)
    (withheld : ∀ l ∈ linkPushes stretch, l.gw = .skip) (few : (linkPushes stretch).length < 63)
    (keeps : KeepsLinks w (.push (.link m) :: stretch ++ [.push (.link f)])) :
    (gwChange.eval (runWindow w (.push (.link m) :: stretch ++ [.push (.link f)]))).isSome ↔
      .clear ∉ stretch ∨ linkPushes stretch = [] := by
  obtain ⟨keepsStart, keepsEnd⟩ := keepsLinks_append.mp keeps
  obtain ⟨keptStart, keepsStretch⟩ := keepsStart
  have phase := stretchPhase_run stretch withheld keepsStretch (stretchPhase_start keptStart)
  have ends := gwChange_after_stretch measured last differs few keepsEnd.1 phase
  have run : runWindow w (.push (.link m) :: stretch ++ [.push (.link f)]) =
      (runWindow (w.push (.link m)) stretch).push (.link f) := by
    simp [runWindow, WindowOp.apply]
  rw [run]
  exact ends

def passiveStretch : List WindowOp :=
  [.push (.link (.gatewayOnly 1 .ok)), .clear, .push (.link (.gatewayOnly 2 .skip)),
    .push (.link (.gatewayOnly 3 .skip)), .clear, .push (.link (.gatewayOnly 4 .fail))]

theorem gwChange_lost_over_passive_stretch :
    KeepsLinks (.new windowCap) passiveStretch ∧
      gwChange.eval (runWindow (.new windowCap) passiveStretch) = none := by
  refine ⟨⟨rfl, rfl, rfl, rfl, trivial⟩, ?_⟩
  decide

theorem gwChange_across_stretch_iff_passive :
    (gwChange.eval (runWindow (.new 8) (.push (.link (.gatewayOnly 1 .ok)) ::
      [.clear, .push (.link (.gatewayOnly 2 .skip)), .clear] ++
        [.push (.link (.gatewayOnly 4 .fail))]))).isSome ↔
      WindowOp.clear ∉ [.clear, .push (.link (.gatewayOnly 2 .skip)), .clear] ∨
        linkPushes [.clear, .push (.link (.gatewayOnly 2 .skip)), .clear] = [] := by
  refine gwChange_across_stretch_iff (by decide) (by decide) (by decide) ?_ (by decide) ?_
  · intro l mem
    rw [List.mem_singleton.mp mem]
    rfl
  · exact ⟨rfl, rfl, rfl, trivial⟩

end NetObserver
