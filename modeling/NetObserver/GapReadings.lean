import NetObserver.ObservationGaps

/-! Whether a diagnosis outside every gap was read since the last of them. -/

namespace NetObserver

open Machine Relational

/-- The link sample and all that is joined to it are from `c` on. -/
structure LayerState.Since (s : LayerState) (c : Int) : Prop where
  link : c ≤ s.link.tsUs
  proxy : ∀ p, s.proxy = some p → c ≤ p.tsUs
  host : ∀ h, s.host = some h → c ≤ h.tsUs

namespace RecordTables

def InGap (r : RecordTables) (t : Int) : Prop := ∃ g ∈ r.gaps, g.span.Contains t

instance (r : RecordTables) (t : Int) : Decidable (r.InGap t) :=
  inferInstanceAs (Decidable (∃ g ∈ r.gaps, g.span.Contains t))

/-- A gap closed at `c`, no later than `t`. -/
def ClosedAt (r : RecordTables) (t c : Int) : Prop :=
  c ≤ t ∧ ∃ g ∈ r.gaps, g.gapClosedUs = some c

/-- No diagnosis of the moment `t` reaches behind a gap that closed before it. -/
structure AnswersSince (r : RecordTables) (loadThreshold : F64) (t : Int) : Prop where
  refused : r.InGap t → ∃ g ∈ r.gaps, g.span.Contains t ∧
    r.verdictAt loadThreshold t = [⟨none, .gap, some g.span⟩]
  verdict : ¬ r.InGap t → ∀ row ∈ r.verdictAt loadThreshold t, ∀ s, row.state = some s →
    ∀ c, r.ClosedAt t c → s.Since c
  context : ¬ r.InGap t → ∀ row ∈ r.incidentContext loadThreshold, row.openedUs = t →
    ∀ s, row.state = some s → ∀ c, r.ClosedAt t c → s.Since c

/-- A stream that was read up to a link sample of the moment was read since `c`, up to one. -/
def StreamRead (links times : List Int) (t c : Int) : Prop :=
  (∃ x ∈ times, ∃ l ∈ links, x ≤ l ∧ l ≤ t) → ∃ x ∈ times, ∃ l ∈ links, c ≤ x ∧ x ≤ l ∧ l ≤ t

/-- Each of the three streams was read since the gaps that closed by `t`. -/
def ReadSince (r : RecordTables) (t : Int) : Prop :=
  ∀ c, r.ClosedAt t c → ∀ times ∈ [r.linkSample.map LinkSample.tsUs,
    r.proxySample.map ProxySample.tsUs, r.hostSample.map HostSample.tsUs],
    StreamRead (r.linkSample.map LinkSample.tsUs) times t c

variable {r : RecordTables} {loadThreshold : F64} {t : Int}

theorem gapAt_none : r.gapAt t = none ↔ ¬ r.InGap t := by
  rw [gapAt, newestOf_none, List.filter_eq_nil_iff]
  simp only [decide_eq_true_eq, InGap, not_exists, not_and]

theorem gapAt_some {g : ObservationGap} (found : r.gapAt t = some g) :
    g ∈ r.gaps ∧ g.span.Contains t := by
  obtain ⟨mem, inside⟩ := List.mem_filter.mp (newestOf_mem found)
  exact ⟨mem, of_decide_eq_true inside⟩

theorem verdictAt_inGap (inside : r.InGap t) : ∃ g ∈ r.gaps, g.span.Contains t ∧
    r.verdictAt loadThreshold t = [⟨none, .gap, some g.span⟩] := by
  cases found : r.gapAt t with
  | none => exact absurd inside (gapAt_none.mp found)
  | some g =>
    obtain ⟨mem, holds⟩ := gapAt_some found
    refine ⟨g, mem, holds, ?_⟩
    simp [verdictAt, found]

theorem verdictAt_outside (outside : ¬ r.InGap t) : r.verdictAt loadThreshold t =
    (r.stateAt loadThreshold t).toList.map fun s => ⟨some s, s.layer, none⟩ := by
  simp [verdictAt, gapAt_none.mpr outside]

theorem stateAt_none : r.stateAt loadThreshold t = none ↔ ∀ l ∈ r.linkSample, t < l.tsUs := by
  rw [stateAt, asOf_none, layerState]
  simp only [List.mem_map, forall_exists_index, and_imp, forall_apply_eq_imp_iff₂]

/-- The state at a moment: its newest link sample, and what is joined to it. -/
theorem stateAt_some {s : LayerState} (found : r.stateAt loadThreshold t = some s) :
    s.link ∈ r.linkSample ∧ s.link.tsUs ≤ t ∧
      (∀ l ∈ r.linkSample, l.tsUs ≤ t → l.tsUs ≤ s.link.tsUs) ∧
      s.proxy = asOf ProxyTickRow.tsUs r.proxyTick s.link.tsUs ∧
      s.host = asOf HostSample.tsUs r.hostSample s.link.tsUs := by
  obtain ⟨mem, before⟩ := asOf_mem found
  have newest := fun l => asOf_newest (b := l) found
  obtain ⟨l, ml, rfl⟩ := List.mem_map.mp mem
  refine ⟨ml, before, fun m mm early => ?_, rfl, rfl⟩
  exact newest _ (List.mem_map.mpr ⟨m, mm, rfl⟩) early

/-- What is joined to the newest link sample is from `c` on exactly when its stream was read
since. -/
theorem joined_since {α : Type*} (time : α → Int) (rows : List α) {links : List Int}
    {newest : Int} (c : Int) (mem : newest ∈ links) (before : newest ≤ t)
    (last : ∀ l ∈ links, l ≤ t → l ≤ newest) :
    (∀ a, asOf time rows newest = some a → c ≤ time a) ↔
      StreamRead links (rows.map time) t c := by
  constructor
  · rintro since ⟨x, mx, l, ml, xl, lt⟩
    obtain ⟨a, ma, rfl⟩ := List.mem_map.mp mx
    have reach := last l ml lt
    have joined : ∃ b, asOf time rows newest = some b :=
      asOf_some_of_mem ma (Int.le_trans xl reach)
    obtain ⟨b, found⟩ := joined
    obtain ⟨mb, early⟩ := asOf_mem found
    exact ⟨time b, List.mem_map_of_mem mb, newest, mem, since b found, early, before⟩
  · intro read a found
    obtain ⟨ma, early⟩ := asOf_mem found
    obtain ⟨x, mx, l, ml, cx, xl, lt⟩ := read ⟨time a, List.mem_map_of_mem ma, newest, mem, early,
      before⟩
    obtain ⟨b, mb, rfl⟩ := List.mem_map.mp mx
    have reach := last l ml lt
    have latest := asOf_newest found mb (Int.le_trans xl reach)
    exact Int.le_trans cx latest

theorem streamRead_congr {links times times' : List Int} (same : ∀ x, x ∈ times ↔ x ∈ times')
    (c : Int) :
    StreamRead links times t c ↔ StreamRead links times' t c := by
  simp only [StreamRead, same]

theorem mem_proxyTick_times (r : RecordTables) (x : Int) :
    x ∈ r.proxyTick.map ProxyTickRow.tsUs ↔ x ∈ r.proxySample.map ProxySample.tsUs := by
  rw [proxyTick, List.map_map]
  simp only [List.mem_map, List.mem_dedup, Function.comp]
  constructor
  · rintro ⟨ts, mem, rfl⟩
    exact mem
  · intro mem
    exact ⟨x, mem, rfl⟩

theorem since_iff {s : LayerState} (found : r.stateAt loadThreshold t = some s) (c : Int) :
    s.Since c ↔ ∀ times ∈ [r.linkSample.map LinkSample.tsUs,
      r.proxySample.map ProxySample.tsUs, r.hostSample.map HostSample.tsUs],
      StreamRead (r.linkSample.map LinkSample.tsUs) times t c := by
  obtain ⟨mem, before, newest, proxy, host⟩ := stateAt_some found
  have held : s.link.tsUs ∈ r.linkSample.map LinkSample.tsUs := List.mem_map_of_mem mem
  have last : ∀ l ∈ r.linkSample.map LinkSample.tsUs, l ≤ t → l ≤ s.link.tsUs := by
    intro l ml early
    obtain ⟨m, mm, rfl⟩ := List.mem_map.mp ml
    exact newest m mm early
  have proxies := joined_since ProxyTickRow.tsUs r.proxyTick c held before last
  have hosts := joined_since HostSample.tsUs r.hostSample c held before last
  rw [streamRead_congr (mem_proxyTick_times r), ← proxy] at proxies
  rw [← host] at hosts
  have links : c ≤ s.link.tsUs ↔ StreamRead (r.linkSample.map LinkSample.tsUs)
      (r.linkSample.map LinkSample.tsUs) t c := by
    constructor
    · intro since _
      exact ⟨_, held, _, held, since, Int.le_refl _, before⟩
    · intro read
      obtain ⟨x, mx, l, ml, cx, xl, lt⟩ := read ⟨_, held, _, held, Int.le_refl _, before⟩
      have reach := last l ml lt
      omega
  simp only [List.mem_cons, List.not_mem_nil, or_false, forall_eq_or_imp, forall_eq]
  rw [← links, ← proxies, ← hosts]
  exact ⟨fun since => ⟨since.link, since.proxy, since.host⟩,
    fun both => ⟨both.1, both.2.1, both.2.2⟩⟩

theorem no_state_no_read (none_ : r.stateAt loadThreshold t = none) (times : List Int) (c : Int) :
    StreamRead (r.linkSample.map LinkSample.tsUs) times t c := by
  rintro ⟨x, _, l, ml, _, lt⟩
  obtain ⟨m, mm, rfl⟩ := List.mem_map.mp ml
  have later := stateAt_none.mp none_ m mm
  omega

theorem contextRow_state {row : ContextRow} (mem : row ∈ r.incidentContext loadThreshold)
    {s : LayerState} (shown : row.state = some s) :
    r.stateAt loadThreshold row.openedUs = some s := by
  have listed := (List.mem_insertionSort _).mp mem
  obtain ⟨⟨i, g⟩, _, rfl⟩ := List.mem_map.mp listed
  cases g with
  | none => exact shown
  | some g => cases shown

theorem readSince_of_verdict (outside : ¬ r.InGap t)
    (since : ∀ row ∈ r.verdictAt loadThreshold t, ∀ s, row.state = some s →
      ∀ c, r.ClosedAt t c → s.Since c) : r.ReadSince t := by
  intro c closed times stream
  cases found : r.stateAt loadThreshold t with
  | none => exact no_state_no_read found times c
  | some s =>
    have row : (⟨some s, s.layer, none⟩ : VerdictRow) ∈ r.verdictAt loadThreshold t := by
      rw [verdictAt_outside outside, found]
      exact List.mem_singleton_self _
    exact (since_iff found c).mp (since _ row s rfl c closed) times stream

theorem verdict_of_readSince (outside : ¬ r.InGap t) (read : r.ReadSince t) :
    ∀ row ∈ r.verdictAt loadThreshold t, ∀ s, row.state = some s →
      ∀ c, r.ClosedAt t c → s.Since c := by
  intro row mem s shown c closed
  rw [verdictAt_outside outside] at mem
  obtain ⟨s', held, rfl⟩ := List.mem_map.mp mem
  cases shown
  have found := Option.mem_toList.mp held
  exact (since_iff found c).mpr (read c closed)

end RecordTables

/-- A diagnosis of a moment keeps to what was read since the last gap exactly when the moment
lies in one, or each of its streams was read since. -/
theorem answers_since_iff (r : RecordTables) (loadThreshold : F64) (t : Int) :
    r.AnswersSince loadThreshold t ↔ (r.InGap t ∨ r.ReadSince t) := by
  constructor
  · intro answers
    by_cases inside : r.InGap t
    · exact .inl inside
    · exact .inr (RecordTables.readSince_of_verdict inside (answers.verdict inside))
  · intro holds
    refine ⟨RecordTables.verdictAt_inGap, fun outside => ?_, fun outside => ?_⟩
    · exact RecordTables.verdict_of_readSince outside (holds.resolve_left outside)
    · intro row mem opened s shown c closed
      have found := RecordTables.contextRow_state mem shown
      rw [opened] at found
      exact (RecordTables.since_iff found c).mpr ((holds.resolve_left outside) c closed)

def resumedUnread : RecordTables :=
  ⟨[.gatewayOnly 10000000 .ok], [], [], [], [],
    [⟨20000000, false, none, .control⟩, ⟨40000000, true, none, .control⟩], []⟩

/-- Between the resume and the first link sample the state from before the pause is served. -/
theorem answered_across_pause : ¬ resumedUnread.AnswersSince .zero 41000000 := by
  intro answers
  have outside : ¬ resumedUnread.InGap 41000000 := by decide
  have read := RecordTables.readSince_of_verdict outside (answers.verdict outside)
  have closed : resumedUnread.ClosedAt 41000000 40000000 := ⟨by decide, by decide⟩
  obtain ⟨x, mx, _, _, since, _⟩ := read 40000000 closed _ (List.mem_cons_self ..)
    ⟨10000000, by decide, 10000000, by decide, by decide, by decide⟩
  have only : x = 10000000 := List.mem_singleton.mp mx
  omega

end NetObserver
