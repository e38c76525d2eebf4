import NetObserver.Rule

/-! Which moves between networks the settle gate sees. -/

namespace NetObserver

open Machine

/-- No more than the settle time older than the newest link, as the gate subtracts it. -/
def withinSettle (settleUs : Int) (newest l : LinkSample) : Prop :=
  satSub newest.tsUs settleUs ≤ l.tsUs

theorem withinSettle_iff {settleUs : Int} {newest l : LinkSample} (forward : 0 ≤ settleUs)
    (clock : newest.tsUs ≤ i64Max) (low : i64Min ≤ l.tsUs) :
    withinSettle settleUs newest l ↔ newest.tsUs - l.tsUs ≤ settleUs := by
  unfold withinSettle satSub clampI64
  have ordered : i64Min ≤ i64Max := by decide
  omega

/-- A move between networks in links kept newest first: the stay in the newest network back to
the first link that shows its router, and behind links without a reading the last of another. -/
structure NetworkMove (links : List LinkSample) where
  since : List LinkSample
  first : LinkSample
  between : List LinkSample
  last : LinkSample
  older : List LinkSample
  split : links = since ++ first :: between ++ last :: older
  router : String
  stayed : ∀ l ∈ since, ∀ shown, l.dhcpRouter = some shown → shown = router
  arrived : first.dhcpRouter = some router
  unmeasured : ∀ l ∈ between, l.dhcpRouter = none
  previous : String
  left : last.dhcpRouter = some previous
  moved : previous ≠ router

namespace NetworkMove

variable {links : List LinkSample}

/-- The links from the newest one back to the last of the previous network. -/
def back (move : NetworkMove links) : List LinkSample :=
  move.since ++ move.first :: move.between ++ [move.last]

theorem split_back (move : NetworkMove links) : links = move.back ++ move.older := by
  have split := move.split
  rw [List.append_cons] at split
  simpa [back] using split

/-- Before the last link of the previous network only the newest one's router is shown. -/
theorem router_of_mem (move : NetworkMove links) {l : LinkSample} {shown : String}
    (newer : l ∈ move.since ++ move.first :: move.between) (measured : l.dhcpRouter = some shown) :
    shown = move.router := by
  rcases List.mem_append.mp newer with stay | rest
  · exact move.stayed l stay shown measured
  · rcases List.mem_cons.mp rest with rfl | gap
    · exact Option.some.inj (measured.symm.trans move.arrived)
    · rw [move.unmeasured l gap] at measured
      cases measured

end NetworkMove

/-- The routers the gate compares: those measured from the newest link back to the horizon. -/
def settleIdentities (settleUs : Int) (links : List LinkSample) : List String :=
  match links.head? with
  | none => []
  | some newest =>
    (links.takeWhile fun l => decide (satSub newest.tsUs settleUs ≤ l.tsUs)).filterMap (·.dhcpRouter)

theorem routerUnsettled_iff (settleUs : Int) (w : RecentWindow) :
    routerUnsettled settleUs w = true ↔
      ∃ a ∈ settleIdentities settleUs (w.recentLink gwChangeScan),
        ∃ b ∈ settleIdentities settleUs (w.recentLink gwChangeScan), a ≠ b := by
  simp only [routerUnsettled, settleIdentities]
  cases newestIs : (w.recentLink gwChangeScan).head? with
  | none => simp
  | some newest =>
    dsimp only
    generalize List.filterMap _ _ = identities
    cases identities with
    | nil => simp
    | cons first rest =>
      simp only [List.any_eq_true, bne_iff_ne]
      constructor
      · rintro ⟨other, shown, differs⟩
        exact ⟨other, List.mem_cons_of_mem _ shown, first, List.mem_cons_self, differs⟩
      · rintro ⟨a, shownA, b, shownB, differs⟩
        by_cases same : a = first
        · subst same
          rcases List.mem_cons.mp shownB with rfl | later
          · exact absurd rfl differs
          · exact ⟨b, later, differs.symm⟩
        · rcases List.mem_cons.mp shownA with rfl | later
          · exact absurd rfl same
          · exact ⟨a, later, same⟩

theorem mem_settleIdentities {settleUs : Int} {links : List LinkSample} {newest : LinkSample}
    (newestIs : links.head? = some newest) (router : String) :
    router ∈ settleIdentities settleUs links ↔
      ∃ l ∈ links.takeWhile (fun l => decide (satSub newest.tsUs settleUs ≤ l.tsUs)),
        l.dhcpRouter = some router := by
  unfold settleIdentities
  rw [newestIs]
  exact List.mem_filterMap

/-- A walk that stops in the front of a list, or at the element right behind it, never
leaves the front. -/
theorem mem_front_of_mem_takeWhile {α : Type*} {p : α → Bool} {front behind : List α}
    {stop x y : α} (stopIn : stop ∈ front ++ [x]) (stops : p stop = false)
    (reached : y ∈ (front ++ x :: behind).takeWhile p) : y ∈ front := by
  induction front with
  | nil =>
    obtain rfl := List.mem_singleton.mp stopIn
    have cut : ¬ p stop = true := by simp [stops]
    rw [List.nil_append, List.takeWhile_cons_of_neg cut] at reached
    cases reached
  | cons a front ih =>
    rw [List.cons_append] at reached
    by_cases passes : p a = true
    · rw [List.takeWhile_cons_of_pos passes] at reached
      rcases List.mem_cons.mp reached with rfl | later
      · exact List.mem_cons_self
      · rcases List.mem_cons.mp stopIn with rfl | deeper
        · rw [stops] at passes
          cases passes
        · exact List.mem_cons_of_mem _ (ih deeper later)
    · rw [List.takeWhile_cons_of_neg passes] at reached
      cases reached

/-- The gate sees a move exactly when no link back to the previous network is too old. -/
theorem routerUnsettled_iff_of_move {settleUs : Int} {w : RecentWindow} {newest : LinkSample}
    (newestIs : (w.recentLink gwChangeScan).head? = some newest)
    (move : NetworkMove (w.recentLink gwChangeScan)) :
    routerUnsettled settleUs w = true ↔ ∀ l ∈ move.back, withinSettle settleUs newest l := by
  rw [routerUnsettled_iff]
  constructor
  · rintro ⟨a, shownA, b, shownB, differs⟩ l behind
    by_contra tooOld
    have stops : decide (satSub newest.tsUs settleUs ≤ l.tsUs) = false := decide_eq_false tooOld
    have onlyNewest : ∀ router ∈ settleIdentities settleUs (w.recentLink gwChangeScan),
        router = move.router := by
      intro router shown
      obtain ⟨k, reached, measured⟩ := (mem_settleIdentities newestIs router).mp shown
      rw [move.split] at reached
      exact move.router_of_mem (mem_front_of_mem_takeWhile behind stops reached) measured
    exact differs ((onlyNewest a shownA).trans (onlyNewest b shownB).symm)
  · intro covered
    have kept : ∀ l ∈ move.back, l ∈ (w.recentLink gwChangeScan).takeWhile fun l =>
        decide (satSub newest.tsUs settleUs ≤ l.tsUs) := by
      intro l behind
      have all : ∀ k ∈ move.back, decide (satSub newest.tsUs settleUs ≤ k.tsUs) = true :=
        fun k within => decide_eq_true (covered k within)
      rw [congrArg (List.takeWhile _) move.split_back, List.takeWhile_append_of_pos all]
      exact List.mem_append_left _ behind
    have firstIn : move.first ∈ move.back := by simp [NetworkMove.back]
    have lastIn : move.last ∈ move.back := by simp [NetworkMove.back]
    exact ⟨move.router, (mem_settleIdentities newestIs _).mpr ⟨move.first, kept _ firstIn,
      move.arrived⟩, move.previous, (mem_settleIdentities newestIs _).mpr ⟨move.last,
      kept _ lastIn, move.left⟩, move.moved.symm⟩

theorem gated_of_unsettled {settleUs : Int} {w : RecentWindow}
    (unsettled : routerUnsettled settleUs w = true) (inner : Condition) (requireDirect : Bool)
    (loadBelow : Option F64) :
    (gated inner requireDirect loadBelow (some settleUs)).eval w = none := by
  simp [gated, unsettled]

theorem gated_of_settled {settleUs : Int} {w : RecentWindow}
    (settled : routerUnsettled settleUs w = false) (inner : Condition) (requireDirect : Bool)
    (loadBelow : Option F64) :
    (gated inner requireDirect loadBelow (some settleUs)).eval w =
      (gated inner requireDirect loadBelow none).eval w := by
  simp [gated, settled]

/-- What the settle gate is for: it holds every fire after a move whose first link is recent
enough, and none while one router is all that was measured. -/
structure SettleGateCovers (settleUs : Int) (w : RecentWindow) : Prop where
  holds : ∀ newest, (w.recentLink gwChangeScan).head? = some newest →
    ∀ move : NetworkMove (w.recentLink gwChangeScan), withinSettle settleUs newest move.first →
      ∀ inner requireDirect loadBelow,
        (gated inner requireDirect loadBelow (some settleUs)).eval w = none
  passes : (∀ k ∈ w.recentLink gwChangeScan, ∀ l ∈ w.recentLink gwChangeScan,
      ∀ a b, k.dhcpRouter = some a → l.dhcpRouter = some b → a = b) →
    ∀ inner requireDirect loadBelow,
      (gated inner requireDirect loadBelow (some settleUs)).eval w =
        (gated inner requireDirect loadBelow none).eval w

theorem settled_of_one_router {settleUs : Int} {w : RecentWindow}
    (oneRouter : ∀ k ∈ w.recentLink gwChangeScan, ∀ l ∈ w.recentLink gwChangeScan,
      ∀ a b, k.dhcpRouter = some a → l.dhcpRouter = some b → a = b) :
    routerUnsettled settleUs w = false := by
  rw [Bool.eq_false_iff, Ne, routerUnsettled_iff]
  rintro ⟨a, shownA, b, shownB, differs⟩
  cases newestIs : (w.recentLink gwChangeScan).head? with
  | none => simp [settleIdentities, newestIs] at shownA
  | some newest =>
    obtain ⟨k, walkedK, measuredK⟩ := (mem_settleIdentities newestIs a).mp shownA
    obtain ⟨l, walkedL, measuredL⟩ := (mem_settleIdentities newestIs b).mp shownB
    have inScanK := (List.takeWhile_sublist _).subset walkedK
    have inScanL := (List.takeWhile_sublist _).subset walkedL
    exact differs (oneRouter k inScanK l inScanL a b measuredK measuredL)

/-- The settle gate covers a window exactly when, after a move it should hold fire for, every
link back to the last of the previous network is recent enough too. -/
theorem settleGate_covers_iff (settleUs : Int) (w : RecentWindow) :
    SettleGateCovers settleUs w ↔
      ∀ newest, (w.recentLink gwChangeScan).head? = some newest →
        ∀ move : NetworkMove (w.recentLink gwChangeScan), withinSettle settleUs newest move.first →
          ∀ l ∈ move.back, withinSettle settleUs newest l := by
  constructor
  · intro covers newest newestIs move arrivedLately
    rw [← routerUnsettled_iff_of_move newestIs move]
    by_contra settled
    have heldBack := covers.holds newest newestIs move arrivedLately ⟨"", fun _ => some ⟨""⟩⟩ false
      none
    rw [gated_of_settled (Bool.eq_false_iff.mpr settled)] at heldBack
    simp [gated] at heldBack
  · intro back
    refine ⟨?_, ?_⟩
    · intro newest newestIs move arrivedLately inner requireDirect loadBelow
      have unsettled := (routerUnsettled_iff_of_move newestIs move).mpr
        (back newest newestIs move arrivedLately)
      exact gated_of_unsettled unsettled inner requireDirect loadBelow
    · intro oneRouter inner requireDirect loadBelow
      exact gated_of_settled (settled_of_one_router oneRouter) inner requireDirect loadBelow

/-- The window after these router readings, each with its time in seconds. -/
def routerWindow (readings : List (Int × Option String)) : RecentWindow :=
  runWindow (RecentWindow.new windowCap) (readings.map fun reading =>
    .push (.link { LinkSample.gatewayOnly (reading.1 * 1000000) .ok with dhcpRouter := reading.2 }))

/-- Carried between networks: two minutes without a router, and the first link that reads one
again is not held back. -/
def carriedWindow : RecentWindow :=
  routerWindow [(0, some "192.168.1.1"), (15, none), (30, none), (45, none), (60, none),
    (75, none), (90, none), (105, none), (120, none), (135, some "10.0.0.1")]

theorem settleGate_misses_carried : ¬ SettleGateCovers 120000000 carriedWindow := by
  intro covers
  have links : carriedWindow.recentLink gwChangeScan =
      [] ++ (carriedWindow.recentLink gwChangeScan)[0] ::
        ((carriedWindow.recentLink gwChangeScan).drop 1).take 8 ++
        (carriedWindow.recentLink gwChangeScan)[9] :: [] := by decide
  have newest : satSub (carriedWindow.recentLink gwChangeScan)[0].tsUs 120000000 ≤
      (carriedWindow.recentLink gwChangeScan)[0].tsUs := by decide
  have heldBack := covers.holds (carriedWindow.recentLink gwChangeScan)[0] rfl
    ⟨[], _, _, _, _, links, "10.0.0.1", by simp, rfl, by decide, "192.168.1.1", rfl, by decide⟩
    newest ⟨"", fun _ => some ⟨""⟩⟩ false none
  exact absurd heldBack (by decide)

end NetObserver
