import NetObserver.ProxyConditions

/-! The tun-death conditions read measured ticks: what a tick's rows are beyond that is nothing
to them. -/

namespace NetObserver

open Machine

/-- A probe of the tick ran: the tun was asked, or an endpoint was. -/
def tickMeasured (tick : List ProxySample) : Bool :=
  tick.any fun r => r.tunCode.isSome || r.tcp != .skip

/-- The greatest code among the rows of the tick. -/
def tickCode (tick : List ProxySample) : Option Nat := (tick.filterMap (·.tunCode)).max?

def tickReading (tick : List ProxySample) : Option (Int × Option Nat) :=
  if tickMeasured tick then tick.head?.map fun first => (first.tsUs, tickCode tick) else none

/-- The measured ticks among the rows the scan reaches, newest first: time and code of each. -/
def measuredTicks (w : RecentWindow) : List (Int × Option Nat) :=
  (tickRows (w.recentProxy wedgeScan)).filterMap tickReading

theorem max?_cons_eq (code : Nat) (codes : List Nat) :
    (code :: codes).max? = max (some code) codes.max? := by
  rw [List.max?_cons]
  cases codes.max? <;> rfl

theorem foldl_ofRows (rows : List ProxySample) (start : ProxyTick) :
    rows.foldl (fun tick r =>
        ⟨tick.measured || r.tunCode.isSome || r.tcp != .skip, max tick.tunCode r.tunCode⟩) start =
      ⟨start.measured || tickMeasured rows, max start.tunCode (tickCode rows)⟩ := by
  induction rows generalizing start with
  | nil =>
    obtain ⟨measured, code⟩ := start
    cases code <;> simp [tickMeasured, tickCode]
  | cons r rows ih =>
    rw [List.foldl_cons, ih]
    congr 1
    · simp [tickMeasured, Bool.or_assoc]
    · unfold tickCode
      cases asked : r.tunCode with
      | none =>
        rw [List.filterMap_cons_none asked]
        cases start.tunCode <;> rfl
      | some code =>
        rw [List.filterMap_cons_some asked, max?_cons_eq]
        cases start.tunCode <;> cases (rows.filterMap (·.tunCode)).max? <;>
          simp [Nat.max_assoc]

/-- The fold of a tick's rows: whether one was measured, and their greatest code. -/
theorem ofRows_eq (tick : List ProxySample) :
    ProxyTick.ofRows tick = ⟨tickMeasured tick, tickCode tick⟩ := by
  unfold ProxyTick.ofRows
  rw [foldl_ofRows]
  cases tickCode tick <;> simp

theorem filter_measured_proxyTicks (rows : List ProxySample) :
    (proxyTicks rows).filter (·.measured) =
      ((tickRows rows).filterMap tickReading).map fun reading => ⟨true, reading.2⟩ := by
  unfold proxyTicks
  induction tickRows rows with
  | nil => rfl
  | cons tick ticks ih =>
    rw [List.map_cons, ofRows_eq]
    cases measured : tickMeasured tick with
    | false =>
      have dropped : tickReading tick = none := by simp [tickReading, measured]
      rw [List.filter_cons_of_neg (by simp), List.filterMap_cons_none dropped, ih]
    | true =>
      cases tick with
      | nil => simp [tickMeasured] at measured
      | cons first rest =>
        have kept : tickReading (first :: rest) = some (first.tsUs, tickCode (first :: rest)) := by
          simp [tickReading, measured]
        rw [List.filter_cons_of_pos rfl, List.filterMap_cons_some kept, List.map_cons, ih]

/-- Dead from the newest tick on, for as many ticks as are still wanted. -/
theorem wedgeCount_isSome_iff {consecutive counted : Nat} (wanted : counted < consecutive)
    (ticks : List ProxyTick) :
    (wedgeCount consecutive counted ticks).isSome ↔ consecutive - counted ≤ ticks.length ∧
      ∀ t ∈ ticks.take (consecutive - counted), t.dead = true := by
  induction ticks generalizing counted with
  | nil =>
    have short : ¬ consecutive - counted ≤ 0 := by omega
    simp [wedgeCount, short]
  | cons t ticks ih =>
    have more : consecutive - counted = (consecutive - (counted + 1)) + 1 := by omega
    rw [more, List.take_succ_cons, List.forall_mem_cons, List.length_cons]
    cases dead : t.dead with
    | false => simp [wedgeCount, dead]
    | true =>
      by_cases last : counted + 1 = consecutive
      · simp [wedgeCount, dead, last]
      · have rest := ih (by omega : counted + 1 < consecutive)
        simp [wedgeCount, dead, last, rest]

theorem wedgeCount_of_le {consecutive counted : Nat} (passed : consecutive ≤ counted)
    (ticks : List ProxyTick) : wedgeCount consecutive counted ticks = none := by
  induction ticks generalizing counted with
  | nil => rfl
  | cons t ticks ih =>
    have never : ¬ counted + 1 = consecutive := by omega
    have rest := ih (by omega : consecutive ≤ counted + 1)
    simp [wedgeCount, never, rest]

/-- The newest links all reach the reference host, and as many measured ticks found the tun
without its 204. -/
structure WedgePattern (consecutive : Nat) (w : RecentWindow) : Prop where
  links : consecutive ≤ w.links.length
  direct : ∀ l ∈ w.links.take consecutive, l.direct = .ok
  ticks : consecutive ≤ (measuredTicks w).length
  dead : ∀ t ∈ (measuredTicks w).take consecutive, t.2 ≠ some 204

theorem wedge_zero (w : RecentWindow) : (wedge 0).eval w = none := by
  simp only [wedge, wedgeCount_of_le (Nat.le_refl 0)]
  split
  next => rfl
  next => split <;> rfl

theorem wedge_isSome_iff (consecutive : Nat) (w : RecentWindow) :
    ((wedge consecutive).eval w).isSome ↔ 0 < consecutive ∧ WedgePattern consecutive w := by
  rcases Nat.eq_zero_or_pos consecutive with rfl | wanted
  · simp [wedge_zero]
  have links : w.recentLink consecutive = w.links.take consecutive := rfl
  have counted := wedgeCount_isSome_iff wanted
    ((proxyTicks (w.recentProxy wedgeScan)).filter (·.measured))
  rw [filter_measured_proxyTicks, Nat.sub_zero, List.length_map, ← List.map_take,
    List.forall_mem_map] at counted
  have dead : ∀ t : Int × Option Nat, (⟨true, t.2⟩ : ProxyTick).dead = true ↔ t.2 ≠ some 204 := by
    intro t
    exact bne_iff_ne
  simp only [dead] at counted
  simp only [wedge, links, List.length_take, filter_measured_proxyTicks]
  by_cases short : min consecutive w.links.length < consecutive
  · rw [if_pos short]
    refine iff_of_false Bool.false_ne_true ?_
    intro both
    have enough := both.2.links
    omega
  rw [if_neg short]
  by_cases reached : ∀ l ∈ w.links.take consecutive, l.direct = .ok
  · have all : (w.links.take consecutive).all (fun l => l.direct == .ok) = true := by
      simpa only [List.all_eq_true, beq_iff_eq] using reached
    rw [all, Bool.not_true, if_neg Bool.false_ne_true, counted]
    constructor
    · intro ticks
      exact ⟨wanted, by omega, reached, ticks.1, ticks.2⟩
    · intro both
      exact ⟨both.2.ticks, both.2.dead⟩
  · have some_not : (w.links.take consecutive).all (fun l => l.direct == .ok) = false := by
      rw [Bool.eq_false_iff]
      simpa only [Ne, List.all_eq_true, beq_iff_eq] using reached
    rw [some_not, Bool.not_false, if_pos rfl]
    exact iff_of_false Bool.false_ne_true fun both => reached both.2.direct

/-- The load the condition reads: zero without a host sample. -/
def hostLoad (w : RecentWindow) : F64 := (w.lastHost.map (·.load1)).getD .zero

theorem find?_measured_proxyTicks (rows : List ProxySample) :
    (proxyTicks rows).find? (·.measured) =
      ((tickRows rows).filterMap tickReading).head?.map fun reading => ⟨true, reading.2⟩ := by
  rw [← List.head?_filter, filter_measured_proxyTicks, List.head?_map]

theorem starvation_isSome_iff (loadThreshold : F64) (w : RecentWindow) :
    ((starvation loadThreshold).eval w).isSome ↔
      (∃ ts, (measuredTicks w).head? = some (ts, some 0)) ∧
        F64.lt loadThreshold (hostLoad w) = true := by
  simp only [starvation, find?_measured_proxyTicks]
  unfold measuredTicks hostLoad
  cases newest : ((tickRows (w.recentProxy wedgeScan)).filterMap tickReading).head? with
  | none => simp
  | some reading =>
    obtain ⟨ts, code⟩ := reading
    by_cases silent : code = some 0
    · simp [ProxyTick.unanswered, silent]
    · simp [ProxyTick.unanswered, silent]

/-- Neither condition reads more of the proxy's rows than the measured ticks they fold to. -/
theorem tunTicks_eval_congr {w w' : RecentWindow} (links : w.links = w'.links)
    (host : w.lastHost = w'.lastHost) (ticks : measuredTicks w = measuredTicks w')
    (consecutive : Nat) (loadThreshold : F64) :
    (wedge consecutive).eval w = (wedge consecutive).eval w' ∧
      (starvation loadThreshold).eval w = (starvation loadThreshold).eval w' := by
  unfold measuredTicks at ticks
  have newest : w.recentLink consecutive = w'.recentLink consecutive :=
    congrArg (List.take consecutive) links
  constructor
  · simp only [wedge, newest, filter_measured_proxyTicks, ticks]
  · simp only [starvation, find?_measured_proxyTicks, ticks, host]

theorem tunDeath_counts_ticks (w : RecentWindow) (consecutive : Nat) (loadThreshold : F64) :
    (∀ w' : RecentWindow, w.links = w'.links → w.lastHost = w'.lastHost →
      measuredTicks w = measuredTicks w' →
      (wedge consecutive).eval w = (wedge consecutive).eval w' ∧
        (starvation loadThreshold).eval w = (starvation loadThreshold).eval w') ∧
    (((wedge consecutive).eval w).isSome ↔ 0 < consecutive ∧ WedgePattern consecutive w) ∧
    (((starvation loadThreshold).eval w).isSome ↔
      (∃ ts, (measuredTicks w).head? = some (ts, some 0)) ∧
        F64.lt loadThreshold (hostLoad w) = true) := by
  refine ⟨?_, wedge_isSome_iff consecutive w, starvation_isSome_iff loadThreshold w⟩
  intro w' links host ticks
  exact tunTicks_eval_congr links host ticks consecutive loadThreshold

/-- The window after these rows of one endpoint, each with the tick's code. -/
def tunWindow (rows : List (Int × TcpVerdict × Option Nat)) : RecentWindow :=
  runWindow (RecentWindow.new windowCap) (rows.map fun row =>
    .push (.proxy { ProxySample.probeOnly row.1 "192.0.2.1" row.2.1 with tunCode := row.2.2 }))

theorem zero_over_negative : F64.lt (.finite true 1) .zero = true := by decide

theorem tunDeath_counts_ticks_silent :
    ((starvation (.finite true 1)).eval
        (tunWindow [(0, .ok, some 204), (15, .fail, some 0), (15, .ok, none)])).isSome ∧
      (wedge 3).eval (tunWindow [(15, .fail, some 0)]) =
        (wedge 3).eval (tunWindow [(15, .ok, none), (15, .skip, some 0), (30, .skip, none)]) := by
  refine ⟨(tunDeath_counts_ticks _ 0 _).2.2.mpr ⟨⟨15, by decide⟩, zero_over_negative⟩, ?_⟩
  exact ((tunDeath_counts_ticks _ 3 .zero).1 _ (by decide) rfl (by decide)).1

/-- No count of ticks is none of them, and no host is a load of zero. -/
theorem tunDeath_at_the_edges :
    ((wedge 0).eval (tunWindow []) = none ∧ WedgePattern 0 (tunWindow [])) ∧
      ((starvation (.finite true 1)).eval (tunWindow [(15, .fail, some 0)])).isSome ∧
        (tunWindow [(15, .fail, some 0)]).lastHost = none := by
  refine ⟨⟨wedge_zero _, ?_⟩, ?_, rfl⟩
  · exact ⟨by decide, by decide, by decide, by decide⟩
  · exact (starvation_isSome_iff _ _).mpr ⟨⟨15, by decide⟩, zero_over_negative⟩

end NetObserver
