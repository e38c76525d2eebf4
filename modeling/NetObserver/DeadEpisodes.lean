import NetObserver.Islands
import NetObserver.RecordQueries

/-! The episodes of a dead tunnel: which ticks each holds, and what its verdict rests on. -/

namespace NetObserver

open Machine Relational

section

variable {loads : List F64} {load loadThreshold : F64} {gapUs : Int}

theorem maxLoad_mem (found : maxLoad loads = some load) : load ∈ loads := by
  induction loads using List.reverseRecOn generalizing load with
  | nil => cases found
  | append_singleton loads last ih =>
    unfold maxLoad at found
    rw [List.foldl_concat] at found
    have chosen := Option.some.inj found
    cases top : maxLoad loads with
    | none =>
      unfold maxLoad at top
      rw [top, Option.elim_none] at chosen
      simp [chosen]
    | some t =>
      have held := ih top
      unfold maxLoad at top
      rw [top, Option.elim_some] at chosen
      split at chosen
      next => simp [chosen]
      next =>
        rw [chosen] at held
        exact List.mem_append_left _ held

/-- Where every tick has a code, the greatest code is zero only if all are. -/
theorem codes_zero {rows : List DeadTick}
    (greatest : (rows.filterMap fun d => d.tick.tunCode).max? = some 0) {d : DeadTick}
    (mem : d ∈ rows) {code : Nat} (has : d.tick.tunCode = some code) : code = 0 := by
  have listed : code ∈ rows.filterMap fun d => d.tick.tunCode :=
    List.mem_filterMap.mpr ⟨d, mem, has⟩
  have bound := (List.max?_eq_some_iff.mp greatest).2 code listed
  omega

theorem episodeVerdict_starvation {rows : List DeadTick}
    (named : episodeVerdict loadThreshold rows = .starvation) :
    (rows.filterMap fun d => d.tick.tunCode).max? = some 0 ∧
      ∃ d ∈ rows, ∃ h, d.host = some h ∧ loadAbove h.load1 loadThreshold = true := by
  unfold episodeVerdict at named
  split at named
  next => cases named
  split at named
  next => cases named
  split at named
  next => cases named
  split at named
  next => cases named
  split at named
  next loaded =>
    obtain ⟨above, silent⟩ := loaded
    refine ⟨silent, ?_⟩
    cases top : maxLoad (rows.filterMap fun d => d.host.map HostSample.load1) with
    | none =>
      rw [top] at above
      cases above
    | some load =>
      rw [top, Option.any_some] at above
      obtain ⟨d, mem, has⟩ := List.mem_filterMap.mp (maxLoad_mem top)
      obtain ⟨h, host, rfl⟩ := Option.map_eq_some_iff.mp has
      exact ⟨d, mem, h, host, above⟩
  next => cases named

theorem episodeVerdict_wedge {rows : List DeadTick}
    (named : episodeVerdict loadThreshold rows = .wedge) {d : DeadTick} (mem : d ∈ rows) :
    (∃ l, d.link = some l ∧ l.gw = .ok ∧ l.direct = .ok) ∧ d.tick.vless ≠ some .fail := by
  unfold episodeVerdict at named
  split at named
  next => cases named
  split at named
  next => cases named
  next reachable =>
    split at named
    next => cases named
    next healthy =>
      have answered := List.any_eq_false.mp (Bool.eq_false_iff.mpr reachable) d mem
      have linked := List.any_eq_false.mp (Bool.eq_false_iff.mpr healthy) d mem
      constructor
      · cases link : d.link with
        | none => simp [link] at linked
        | some l =>
          simp only [link, Option.all_some, Bool.or_eq_true, bne_iff_ne, not_or, not_not] at linked
          exact ⟨l, rfl, linked.1, linked.2⟩
      · intro failed
        simp [failed] at answered

end

namespace RecordTables

variable {r : RecordTables} {gapUs : Int}

theorem proxyTick_distinct (r : RecordTables) : (r.proxyTick.map ProxyTickRow.tsUs).Nodup := by
  unfold proxyTick
  rw [List.map_map]
  have times : (r.proxySample.map ProxySample.tsUs).dedup.Nodup := List.nodup_dedup _
  rw [← List.map_id (r.proxySample.map ProxySample.tsUs).dedup] at times
  exact times

theorem deadTicks_distinct (r : RecordTables) : (r.deadTicks.map ProxyTickRow.tsUs).Nodup :=
  r.proxyTick_distinct.sublist (List.filter_sublist.map _)

end RecordTables

theorem numberEpisodes_cons (gapUs : Int) (n : Nat) (prev : Option ProxyTickRow) (t : ProxyTickRow)
    (rest : List (Option ProxyTickRow × ProxyTickRow)) :
    numberEpisodes gapUs n ((prev, t) :: rest) =
      (t, if prev.all fun a => gapUs < t.tsUs - a.tsUs then n + 1 else n) ::
        numberEpisodes gapUs (if prev.all fun a => gapUs < t.tsUs - a.tsUs then n + 1 else n) rest :=
  rfl

/-- The code's running number of a tick is the number of its island. -/
theorem numberEpisodes_eq (gapUs : Int) (n : Nat)
    {steps : List (Option ProxyTickRow × ProxyTickRow)}
    (sorted : steps.Pairwise fun p q => p.2.tsUs < q.2.tsUs) :
    numberEpisodes gapUs n steps = steps.map fun p => (p.2, n + steps.countP fun q =>
      (q.1.all fun a => gapUs < q.2.tsUs - a.tsUs) && decide (q.2.tsUs ≤ p.2.tsUs)) := by
  induction steps generalizing n with
  | nil => rfl
  | cons p rest ih =>
    obtain ⟨prev, t⟩ := p
    obtain ⟨first, later⟩ := List.pairwise_cons.mp sorted
    have none_yet : (rest.countP fun q =>
        (q.1.all fun a => gapUs < q.2.tsUs - a.tsUs) && decide (q.2.tsUs ≤ t.tsUs)) = 0 := by
      rw [List.countP_eq_zero]
      intro q mem both
      have after := first q mem
      have before := of_decide_eq_true (Bool.and_eq_true_iff.mp both).2
      exact absurd before (not_le.mpr after)
    rw [numberEpisodes_cons, List.map_cons, ih _ later, List.countP_cons, none_yet]
    congr 1
    · simp only [le_refl, decide_true, Bool.and_true, Nat.zero_add]
      split <;> rfl
    · refine List.map_congr_left fun q mem => ?_
      have after : t.tsUs ≤ q.2.tsUs := le_of_lt (first q mem)
      rw [List.countP_cons]
      simp only [after, decide_true, Bool.and_true]
      congr 1
      split <;> omega

namespace RecordTables

variable {r : RecordTables} {gapUs : Int} {loadThreshold : F64} {t : ProxyTickRow}
  {row : EpisodeRow}

/-- The number of a dead tick's episode. -/
def episodeOf (gapUs : Int) (r : RecordTables) (t : ProxyTickRow) : Nat :=
  Islands.number ProxyTickRow.tsUs gapUs r.deadTicks t

def joinedTick (gapUs : Int) (r : RecordTables) (t : ProxyTickRow) : DeadTick :=
  ⟨t, r.episodeOf gapUs t, asOf HostSample.tsUs r.hostSample t.tsUs,
    asOf LinkSample.tsUs r.linkSample t.tsUs⟩

/-- The ticks of one group of the query. -/
def episodeTicks (gapUs : Int) (r : RecordTables) (episode : Nat) : List ProxyTickRow :=
  ((r.deadContext gapUs).filter fun d => d.episode == episode).map DeadTick.tick

theorem deadContext_eq (gapUs : Int) (r : RecordTables) : r.deadContext gapUs =
    (r.deadTicks.insertionSort fun a b => a.tsUs ≤ b.tsUs).map (r.joinedTick gapUs) := by
  have rising := lagOver_sorted r.deadTicks_distinct
  have ordered : (lagOver ProxyTickRow.tsUs r.deadTicks).Pairwise
      fun p q => p.2.tsUs < q.2.tsUs := by
    have seconds : (lagOver ProxyTickRow.tsUs r.deadTicks).map Prod.snd =
        r.deadTicks.insertionSort fun a b => a.tsUs ≤ b.tsUs := map_snd_lag _
    rw [← seconds] at rising
    have spread := List.pairwise_map.mp rising
    exact spread
  unfold deadContext
  rw [numberEpisodes_eq gapUs 0 ordered, List.map_map, lagOver_eq r.deadTicks_distinct,
    List.map_map]
  refine List.map_congr_left fun t _ => ?_
  have same : ((r.deadTicks.insertionSort fun a b => a.tsUs ≤ b.tsUs).map fun b =>
      (newestBefore ProxyTickRow.tsUs r.deadTicks b.tsUs, b)).countP (fun q =>
        (q.1.all fun a => gapUs < q.2.tsUs - a.tsUs) && decide (q.2.tsUs ≤ t.tsUs)) =
      r.episodeOf gapUs t := by
    rw [List.countP_map]
    exact (List.perm_insertionSort (fun a b : ProxyTickRow => a.tsUs ≤ b.tsUs)
      r.deadTicks).countP_eq _
  simp only [Function.comp_apply, same, Nat.zero_add]
  rfl

theorem mem_deadContext {d : DeadTick} :
    d ∈ r.deadContext gapUs ↔ ∃ t ∈ r.deadTicks, r.joinedTick gapUs t = d := by
  rw [deadContext_eq, List.mem_map]
  simp only [List.mem_insertionSort]

theorem mem_episodeTicks {episode : Nat} :
    t ∈ r.episodeTicks gapUs episode ↔ t ∈ r.deadTicks ∧ r.episodeOf gapUs t = episode := by
  unfold episodeTicks
  rw [List.mem_map]
  constructor
  · rintro ⟨d, grouped, rfl⟩
    obtain ⟨held, number⟩ := List.mem_filter.mp grouped
    obtain ⟨u, dead, rfl⟩ := mem_deadContext.mp held
    exact ⟨dead, eq_of_beq number⟩
  · rintro ⟨dead, rfl⟩
    refine ⟨r.joinedTick gapUs t, List.mem_filter.mpr ⟨mem_deadContext.mpr ⟨t, dead, rfl⟩, ?_⟩, rfl⟩
    exact beq_self_eq_true _

theorem episodeTicks_nodup (gapUs : Int) (r : RecordTables) (episode : Nat) :
    (r.episodeTicks gapUs episode).Nodup := by
  have ticks : ((r.deadContext gapUs).map DeadTick.tick).Nodup := by
    rw [deadContext_eq, List.map_map]
    have perm := List.perm_insertionSort (fun a b : ProxyTickRow => a.tsUs ≤ b.tsUs) r.deadTicks
    have dead : r.deadTicks.Nodup := List.Nodup.of_map _ r.deadTicks_distinct
    have sorted := perm.nodup_iff.mpr dead
    rw [← List.map_id (List.insertionSort _ _)] at sorted
    exact sorted
  exact ticks.sublist (List.filter_sublist.map _)

/-- What a row of the query says of its group. -/
structure Summarises (loadThreshold : F64) (rows : List DeadTick) (row : EpisodeRow) : Prop where
  ticks : row.ticks = rows.length
  opened : (∃ d ∈ rows, d.tick.tsUs = row.openedUs) ∧ ∀ d ∈ rows, row.openedUs ≤ d.tick.tsUs
  closed : (∃ d ∈ rows, d.tick.tsUs = row.closedUs) ∧ ∀ d ∈ rows, d.tick.tsUs ≤ row.closedUs
  verdict : row.verdict = episodeVerdict loadThreshold rows

theorem episodeRow_summarises {episode : Nat} {rows : List DeadTick}
    (found : episodeRow loadThreshold episode rows = some row) :
    row.episode = episode ∧ Summarises loadThreshold rows row := by
  cases rows with
  | nil => cases found
  | cons first rest =>
    obtain rfl := Option.some.inj found
    refine ⟨rfl, rfl, ?_, ?_, rfl⟩
    · exact foldl_select le_refl (fun _ _ _ => le_trans) min_le_left min_le_right min_choice
        (fun d : DeadTick => d.tick.tsUs) first rest
    · have itself (a : Int) : a ≥ a := le_refl a
      exact foldl_select itself (fun _ _ _ => ge_trans) le_max_left le_max_right max_choice
        (fun d : DeadTick => d.tick.tsUs) first rest

theorem mem_wedgeVsStarvation : row ∈ r.wedgeVsStarvation loadThreshold gapUs ↔
    ∃ episode, episodeRow loadThreshold episode
      ((r.deadContext gapUs).filter fun d => d.episode == episode) = some row := by
  unfold wedgeVsStarvation
  rw [List.mem_insertionSort, List.mem_filterMap]
  constructor
  · rintro ⟨episode, _, found⟩
    exact ⟨episode, found⟩
  · rintro ⟨episode, found⟩
    refine ⟨episode, List.mem_dedup.mpr ?_, found⟩
    obtain ⟨d, grouped, _⟩ := (episodeRow_summarises found).2.opened.1
    obtain ⟨held, number⟩ := List.mem_filter.mp grouped
    exact List.mem_map.mpr ⟨d, held, eq_of_beq number⟩

theorem exists_episode (loadThreshold : F64) (dead : t ∈ r.deadTicks) :
    ∃ row ∈ r.wedgeVsStarvation loadThreshold gapUs, row.episode = r.episodeOf gapUs t := by
  have here : r.joinedTick gapUs t ∈
      (r.deadContext gapUs).filter fun d => d.episode == r.episodeOf gapUs t :=
    List.mem_filter.mpr ⟨mem_deadContext.mpr ⟨t, dead, rfl⟩, beq_self_eq_true _⟩
  cases found : episodeRow loadThreshold (r.episodeOf gapUs t)
      ((r.deadContext gapUs).filter fun d => d.episode == r.episodeOf gapUs t) with
  | some row =>
    exact ⟨row, mem_wedgeVsStarvation.mpr ⟨_, found⟩, (episodeRow_summarises found).1⟩
  | none =>
    rcases rows : (r.deadContext gapUs).filter fun d => d.episode == r.episodeOf gapUs t with
      _ | ⟨first, rest⟩
    · rw [rows] at here
      cases here
    · rw [rows] at found
      cases found

theorem summarises_of_mem (mem : row ∈ r.wedgeVsStarvation loadThreshold gapUs) :
    Summarises loadThreshold ((r.deadContext gapUs).filter fun d => d.episode == row.episode)
      row := by
  obtain ⟨episode, found⟩ := mem_wedgeVsStarvation.mp mem
  obtain ⟨rfl, summary⟩ := episodeRow_summarises found
  exact summary

theorem row_of_episode {other : EpisodeRow} (mem : row ∈ r.wedgeVsStarvation loadThreshold gapUs)
    (mem' : other ∈ r.wedgeVsStarvation loadThreshold gapUs) (same : row.episode = other.episode) :
    row = other := by
  obtain ⟨m, found⟩ := mem_wedgeVsStarvation.mp mem
  obtain ⟨n, found'⟩ := mem_wedgeVsStarvation.mp mem'
  obtain ⟨rfl, _⟩ := episodeRow_summarises found
  obtain ⟨rfl, _⟩ := episodeRow_summarises found'
  rw [same, found'] at found
  exact (Option.some.inj found).symm

theorem episodes_nodup (loadThreshold : F64) (gapUs : Int) (r : RecordTables) :
    ((r.wedgeVsStarvation loadThreshold gapUs).map EpisodeRow.episode).Nodup := by
  unfold wedgeVsStarvation
  have perm := (List.perm_insertionSort (fun a b : EpisodeRow => a.openedUs ≤ b.openedUs)
    (((r.deadContext gapUs).map DeadTick.episode).dedup.filterMap fun episode =>
      episodeRow loadThreshold episode
        ((r.deadContext gapUs).filter fun d => d.episode == episode))).map EpisodeRow.episode
  refine perm.nodup_iff.mpr ?_
  have keyed (ks : List Nat) : ((ks.filterMap fun episode => episodeRow loadThreshold episode
      ((r.deadContext gapUs).filter fun d => d.episode == episode)).map
        EpisodeRow.episode).Sublist ks := by
    induction ks with
    | nil => exact .slnil
    | cons k ks ih =>
      rw [List.filterMap_cons]
      cases found : episodeRow loadThreshold k
          ((r.deadContext gapUs).filter fun d => d.episode == k) with
      | none => exact ih.cons k
      | some row =>
        have same := (episodeRow_summarises found).1
        rw [List.map_cons, same]
        exact ih.cons_cons k
  exact (keyed _).nodup (List.nodup_dedup _)

/-- Some row of the query holds both ticks. -/
def SameEpisode (loadThreshold : F64) (gapUs : Int) (r : RecordTables) (a b : ProxyTickRow) : Prop :=
  ∃ row ∈ r.wedgeVsStarvation loadThreshold gapUs,
    a ∈ r.episodeTicks gapUs row.episode ∧ b ∈ r.episodeTicks gapUs row.episode

/-- No more than the gap lies between consecutive dead ticks from one to the other. -/
def CloseFrom (gapUs : Int) (r : RecordTables) (a b : ProxyTickRow) : Prop :=
  ∀ c d, Islands.Consecutive ProxyTickRow.tsUs r.deadTicks c d → a.tsUs ≤ c.tsUs →
    d.tsUs ≤ b.tsUs → d.tsUs - c.tsUs ≤ gapUs

/-- No tick measured 204 lies between the two. -/
def NoLiveBetween (r : RecordTables) (a b : ProxyTickRow) : Prop :=
  ∀ l ∈ r.proxyTick, l.tunCode = some 204 → ¬ (a.tsUs < l.tsUs ∧ l.tsUs < b.tsUs)

section

variable {a b : ProxyTickRow}

theorem sameEpisode_iff_number (loadThreshold : F64) (memA : a ∈ r.deadTicks)
    (memB : b ∈ r.deadTicks) : r.SameEpisode loadThreshold gapUs a b ↔
      r.episodeOf gapUs a = r.episodeOf gapUs b := by
  constructor
  · rintro ⟨row, _, holdsA, holdsB⟩
    exact (mem_episodeTicks.mp holdsA).2.trans (mem_episodeTicks.mp holdsB).2.symm
  · intro same
    obtain ⟨row, mem, number⟩ := exists_episode loadThreshold memA
    exact ⟨row, mem, mem_episodeTicks.mpr ⟨memA, number.symm⟩,
      mem_episodeTicks.mpr ⟨memB, same.symm.trans number.symm⟩⟩

theorem sameEpisode_iff_close (loadThreshold : F64) (memA : a ∈ r.deadTicks)
    (memB : b ∈ r.deadTicks) (order : a.tsUs ≤ b.tsUs) :
    r.SameEpisode loadThreshold gapUs a b ↔ CloseFrom gapUs r a b := by
  rw [sameEpisode_iff_number loadThreshold memA memB]
  exact Islands.number_eq_iff_close r.deadTicks_distinct memA order

/-- A live tick between two dead ones lies between two consecutive dead ones. -/
theorem exists_consecutive_around {l : ProxyTickRow} (memA : a ∈ r.deadTicks)
    (memB : b ∈ r.deadTicks) (live : l ∈ r.proxyTick) (code : l.tunCode = some 204)
    (after : a.tsUs < l.tsUs) (before : l.tsUs < b.tsUs) :
    ∃ c d, Islands.Consecutive ProxyTickRow.tsUs r.deadTicks c d ∧ a.tsUs ≤ c.tsUs ∧
      d.tsUs ≤ b.tsUs ∧ c.tsUs < l.tsUs ∧ l.tsUs < d.tsUs := by
  have apart {x : ProxyTickRow} (dead : x ∈ r.deadTicks) : x.tsUs ≠ l.tsUs := by
    intro same
    obtain ⟨tick, measured⟩ := List.mem_filter.mp dead
    have eq := List.inj_on_of_nodup_map r.proxyTick_distinct tick live same
    rw [eq, code] at measured
    cases measured
  obtain ⟨c, found⟩ := newestBefore_some_of_mem memA after
  obtain ⟨memC, early⟩ := newestBefore_mem found
  have newest := newestBefore_newest found memA after
  have later : b ∈ r.deadTicks.filter fun x => l.tsUs < x.tsUs :=
    List.mem_filter.mpr ⟨memB, decide_eq_true before⟩
  cases first : (r.deadTicks.filter fun x => l.tsUs < x.tsUs).argmin ProxyTickRow.tsUs with
  | none =>
    rw [List.argmin_eq_none.mp first] at later
    cases later
  | some d =>
    obtain ⟨memD, late⟩ := List.mem_filter.mp (List.argmin_mem first)
    have late := of_decide_eq_true late
    have oldest := List.le_of_mem_argmin later first
    refine ⟨c, d, ⟨memC, memD, by omega, fun x mem inside => ?_⟩, newest, oldest, early, late⟩
    have other := apart mem
    by_cases past : l.tsUs < x.tsUs
    · have least := List.le_of_mem_argmin
        (List.mem_filter.mpr ⟨mem, decide_eq_true past⟩) first
      omega
    · have greatest := newestBefore_newest found mem (by omega)
      omega

end

/-- The rows of the query share the dead ticks out among themselves. -/
structure SharesOut (gapUs : Int) (r : RecordTables) (rows : List EpisodeRow) : Prop where
  numbers : (rows.map EpisodeRow.episode).Nodup
  once : ∀ t ∈ r.deadTicks, ∃ row ∈ rows, t ∈ r.episodeTicks gapUs row.episode ∧
    ∀ other ∈ rows, t ∈ r.episodeTicks gapUs other.episode → other = row
  ticks : ∀ row ∈ rows, (r.episodeTicks gapUs row.episode).Nodup ∧
    row.ticks = (r.episodeTicks gapUs row.episode).length
  opened : ∀ row ∈ rows, ∃ t ∈ r.episodeTicks gapUs row.episode, t.tsUs = row.openedUs
  closed : ∀ row ∈ rows, ∃ t ∈ r.episodeTicks gapUs row.episode, t.tsUs = row.closedUs
  bounds : ∀ row ∈ rows, ∀ t, t ∈ r.episodeTicks gapUs row.episode ↔
    t ∈ r.deadTicks ∧ row.openedUs ≤ t.tsUs ∧ t.tsUs ≤ row.closedUs

/-- What the two verdicts on the tunnel rest on. -/
structure VerdictsRest (loadThreshold : F64) (gapUs : Int) (r : RecordTables)
    (rows : List EpisodeRow) : Prop where
  silent : ∀ row ∈ rows, row.verdict = .starvation →
    ∀ t ∈ r.episodeTicks gapUs row.episode, t.tunCode = some 0
  loaded : ∀ row ∈ rows, row.verdict = .starvation →
    ∃ t ∈ r.episodeTicks gapUs row.episode,
      ∃ h, asOf HostSample.tsUs r.hostSample t.tsUs = some h ∧
        loadAbove h.load1 loadThreshold = true
  healthy : ∀ row ∈ rows, row.verdict = .wedge →
    ∀ t ∈ r.episodeTicks gapUs row.episode,
      (∃ l, asOf LinkSample.tsUs r.linkSample t.tsUs = some l ∧ l.gw = .ok ∧ l.direct = .ok) ∧
        t.vless ≠ some .fail

theorem wedgeVsStarvation_sharesOut (loadThreshold : F64) (gapUs : Int) (r : RecordTables) :
    SharesOut gapUs r (r.wedgeVsStarvation loadThreshold gapUs) := by
  have tick {episode : Nat} {d : DeadTick}
      (grouped : d ∈ (r.deadContext gapUs).filter fun d => d.episode == episode) :
      d.tick ∈ r.episodeTicks gapUs episode := List.mem_map_of_mem grouped
  constructor
  case numbers => exact episodes_nodup loadThreshold gapUs r
  case once =>
    intro t dead
    have episode : ∃ row ∈ r.wedgeVsStarvation loadThreshold gapUs,
        row.episode = r.episodeOf gapUs t := exists_episode loadThreshold dead
    obtain ⟨row, mem, number⟩ := episode
    refine ⟨row, mem, mem_episodeTicks.mpr ⟨dead, number.symm⟩, fun other held holds => ?_⟩
    have same := (mem_episodeTicks.mp holds).2
    exact row_of_episode held mem (same.symm.trans number.symm)
  case ticks =>
    intro row mem
    refine ⟨episodeTicks_nodup gapUs r row.episode, ?_⟩
    rw [(summarises_of_mem mem).ticks, episodeTicks, List.length_map]
  case opened =>
    intro row mem
    obtain ⟨d, grouped, value⟩ := (summarises_of_mem mem).opened.1
    exact ⟨d.tick, tick grouped, value⟩
  case closed =>
    intro row mem
    obtain ⟨d, grouped, value⟩ := (summarises_of_mem mem).closed.1
    exact ⟨d.tick, tick grouped, value⟩
  case bounds =>
    intro row mem t
    have summary := summarises_of_mem mem
    constructor
    · intro holds
      obtain ⟨d, grouped, rfl⟩ := List.mem_map.mp holds
      exact ⟨(mem_episodeTicks.mp holds).1, summary.opened.2 d grouped, summary.closed.2 d grouped⟩
    · rintro ⟨dead, after, before⟩
      obtain ⟨c, groupedC, opened⟩ := summary.opened.1
      obtain ⟨d, groupedD, closed⟩ := summary.closed.1
      have numberC := (mem_episodeTicks.mp (tick groupedC)).2
      have numberD := (mem_episodeTicks.mp (tick groupedD)).2
      have same := Islands.number_eq_of_between (opened.trans_le after) (before.trans_eq closed.symm)
        (numberC.trans numberD.symm)
      exact mem_episodeTicks.mpr ⟨dead, same.trans numberC⟩

theorem wedgeVsStarvation_verdictsRest (loadThreshold : F64) (gapUs : Int) (r : RecordTables) :
    VerdictsRest loadThreshold gapUs r (r.wedgeVsStarvation loadThreshold gapUs) := by
  constructor
  case silent =>
    intro row mem named t holds
    have summary := summarises_of_mem mem
    rw [summary.verdict] at named
    obtain ⟨d, grouped, rfl⟩ := List.mem_map.mp holds
    obtain ⟨_, measured⟩ := List.mem_filter.mp (mem_episodeTicks.mp holds).1
    cases code : d.tick.tunCode with
    | none => simp [code] at measured
    | some n =>
      have zero := codes_zero (episodeVerdict_starvation named).1 grouped code
      rw [zero]
  case loaded =>
    intro row mem named
    have summary := summarises_of_mem mem
    rw [summary.verdict] at named
    obtain ⟨d, grouped, h, host, above⟩ := (episodeVerdict_starvation named).2
    obtain ⟨u, _, rfl⟩ := mem_deadContext.mp (List.mem_filter.mp grouped).1
    exact ⟨u, List.mem_map_of_mem grouped, h, host, above⟩
  case healthy =>
    intro row mem named t holds
    have summary := summarises_of_mem mem
    rw [summary.verdict] at named
    obtain ⟨d, grouped, rfl⟩ := List.mem_map.mp holds
    obtain ⟨u, _, rfl⟩ := mem_deadContext.mp (List.mem_filter.mp grouped).1
    exact episodeVerdict_wedge named grouped

/-- Two dead ticks share an episode exactly when they are close and no live tick parts them. -/
def NeverBridges (loadThreshold : F64) (gapUs : Int) (r : RecordTables) : Prop :=
  ∀ a ∈ r.deadTicks, ∀ b ∈ r.deadTicks, a.tsUs ≤ b.tsUs →
    (r.SameEpisode loadThreshold gapUs a b ↔ CloseFrom gapUs r a b ∧ r.NoLiveBetween a b)

theorem episodes_never_bridge_iff (loadThreshold : F64) (gapUs : Int) (r : RecordTables) :
    SharesOut gapUs r (r.wedgeVsStarvation loadThreshold gapUs) ∧
      VerdictsRest loadThreshold gapUs r (r.wedgeVsStarvation loadThreshold gapUs) ∧
      (∀ a ∈ r.deadTicks, ∀ b ∈ r.deadTicks, a.tsUs ≤ b.tsUs →
        (r.SameEpisode loadThreshold gapUs a b ↔ CloseFrom gapUs r a b)) ∧
      (r.NeverBridges loadThreshold gapUs ↔
        ∀ c d, Islands.Consecutive ProxyTickRow.tsUs r.deadTicks c d → d.tsUs - c.tsUs ≤ gapUs →
          r.NoLiveBetween c d) := by
  refine ⟨wedgeVsStarvation_sharesOut loadThreshold gapUs r,
    wedgeVsStarvation_verdictsRest loadThreshold gapUs r,
    fun a memA b memB order => sameEpisode_iff_close loadThreshold memA memB order, ?_⟩
  constructor
  · intro never c d consecutive near
    have order := le_of_lt consecutive.order
    have close : CloseFrom gapUs r c d := by
      intro e f other first last
      have outside := consecutive.between e other.first
      have outside' := consecutive.between f other.second
      have rising := other.order
      omega
    have shared := (sameEpisode_iff_close loadThreshold consecutive.first consecutive.second
      order).mpr close
    exact ((never c consecutive.first d consecutive.second order).mp shared).2
  · intro quiet a memA b memB order
    rw [sameEpisode_iff_close loadThreshold memA memB order]
    constructor
    · intro close
      refine ⟨close, fun l live code inside => ?_⟩
      obtain ⟨c, d, consecutive, first, last, early, late⟩ :=
        exists_consecutive_around memA memB live code inside.1 inside.2
      exact quiet c d consecutive (close c d consecutive first last) l live code ⟨early, late⟩
    · intro both
      exact both.1

def tunRow (tsUs : Int) (code : Nat) : ProxySample :=
  { tsUs := tsUs, serverIp := "198.51.100.7", tcp := .ok, rttMs := none, tunCode := some code
    selector := none, estDirectAlive := none, estDirectAgeS := none, estTunAlive := none
    estTunAgeS := none, urltestMs := none, urltestAtUs := none, urltestNode := none
    urltestAbsentSinceUs := none }

/-- A silent tick at 0 and one at 20 s; between them, at 10 s, the tunnel answered. -/
def answeredBetween : RecordTables :=
  ⟨[], [tunRow 0 0, tunRow 10000000 204, tunRow 20000000 0], [], [], [], [], []⟩

theorem episode_bridges_live_tick : ¬ answeredBetween.NeverBridges .zero 30000000 := by
  intro never
  have first : (⟨0, some .ok, some 0⟩ : ProxyTickRow) ∈ answeredBetween.deadTicks :=
    List.mem_cons_self ..
  have second : (⟨20000000, some .ok, some 0⟩ : ProxyTickRow) ∈ answeredBetween.deadTicks :=
    List.mem_cons_of_mem _ (List.mem_cons_self ..)
  have live : (⟨10000000, some .ok, some 204⟩ : ProxyTickRow) ∈ answeredBetween.proxyTick :=
    List.mem_cons_of_mem _ (List.mem_cons_self ..)
  have one : answeredBetween.SameEpisode .zero 30000000 ⟨0, some .ok, some 0⟩
      ⟨20000000, some .ok, some 0⟩ :=
    (sameEpisode_iff_number .zero first second).mpr rfl
  have apart := ((never _ first _ second (by decide)).mp one).2
  exact apart _ live rfl ⟨by decide, by decide⟩

end RecordTables

end NetObserver
