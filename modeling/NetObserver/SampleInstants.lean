import NetObserver.GapReadings

/-! The diagnoses of a link sample's own instant: what is recorded behind it decides whether they
show it. -/

namespace NetObserver

open Machine Relational

namespace RecordTables

/-- A silence begins at an instant: a pause is recorded there, or the next thing recorded is a
startup, or later than a tick can be. -/
def SilenceOpens (r : RecordTables) (t : Int) : Prop :=
  (∃ e ∈ r.observingEdge, e.observing = false ∧ e.tsUs = t) ∨
    ∃ b, r.Stride t b ∧ ((∃ su ∈ r.startups, su.tsUs = b) ∨ defaultSleepThresholdUs < b - t)

/-- The verdict of an instant is no gap, and an incident opened there is shown, with the state of a
link sample of the instant. -/
structure KeepsContext (r : RecordTables) (loadThreshold : F64) (t : Int) : Prop where
  verdict : ∀ row ∈ r.verdictAt loadThreshold t, row.layer ≠ .gap
  shown : ∀ i ∈ r.incident, i.openedUs = t →
    ∃ row ∈ r.incidentContext loadThreshold, ContextRow.identity row = Incident.identity i
  context : ∀ row ∈ r.incidentContext loadThreshold, row.openedUs = t →
    ∃ s ∈ r.layerState loadThreshold, s.link.tsUs = t ∧ row.state = some s ∧
      row.layer = some s.layer ∧ s.layer ≠ .gap

variable {r : RecordTables} {loadThreshold : F64} {t : Int}

theorem link_isSample {l : LinkSample} (mem : l ∈ r.linkSample) : l.tsUs ∈ r.sampleTs := by
  simp only [sampleTs, List.append_assoc, List.mem_append]
  exact .inl (List.mem_map_of_mem mem)

/-- A gap that contains a sample opened at it. -/
theorem opened_of_sample {g : ObservationGap} (mem : g ∈ r.gaps) (sample : t ∈ r.sampleTs)
    (inside : g.span.Contains t) : g.gapOpenedUs = t := by
  have late : ¬ (g.gapOpenedUs < t ∧ g.span.Contains t) := gap_quiet mem sample
  have early : g.gapOpenedUs ≤ t := inside.1
  by_contra other
  exact late ⟨by omega, inside⟩

theorem inGap_of_pause {e : ObservingEdge} (mem : e ∈ r.observingEdge)
    (off : e.observing = false) : r.InGap e.tsUs := by
  obtain ⟨g, held, opened⟩ := exists_pause mem off
  obtain ⟨f, pause⟩ := pause_of_mem held
  refine ⟨g, List.mem_append_left _ (List.mem_append_left _ held), Int.le_of_eq opened, ?_⟩
  intro c closed
  have later := (pause.closed c closed).2.1
  rw [← pause.opened, opened] at later
  exact later

theorem pause_of_kind {p : Point} (mem : p ∈ r.points) (kind : p.kind = .pause) :
    ∃ e ∈ r.observingEdge, e.observing = false ∧ e.tsUs = p.tsUs := by
  rcases point_cases mem with ⟨-, sample, -⟩ | ⟨e, held, rfl⟩
  · rw [kind] at sample
    cases sample
  · refine ⟨e, held, ?_, rfl⟩
    have paused : e.kind = .pause := kind
    unfold ObservingEdge.kind at paused
    cases off : e.observing with
    | false => rfl
    | true =>
      rw [off] at paused
      change (if e.cause = .startup then PointKind.startup else .resume) = .pause at paused
      split at paused <;> cases paused

/-- A recorded sample lies in a gap exactly when a silence begins at it. -/
theorem inGap_sample_iff (sample : t ∈ r.sampleTs) : r.InGap t ↔ r.SilenceOpens t := by
  constructor
  · rintro ⟨g, mem, inside⟩
    have opened := opened_of_sample mem sample inside
    rcases gap_cases mem with ⟨e, pause⟩ | ⟨p, su, stop⟩ | ⟨p, q, sleep⟩
    · exact .inl ⟨e, pause.edge, pause.off, pause.opened.symm.trans opened⟩
    · rw [stop.gap] at opened
      have stride := stop.stride
      rw [show p.tsUs = t from opened] at stride
      exact .inr ⟨su.tsUs, stride, .inl ⟨su, stop.startup, rfl⟩⟩
    · rw [sleep.gap] at opened
      have stride := sleep.stride
      have long := sleep.long
      rw [show p.tsUs = t from opened] at stride long
      exact .inr ⟨q.tsUs, stride, .inr long⟩
  · rintro (⟨e, mem, off, rfl⟩ | ⟨b, stride, ⟨su, startup, rfl⟩ | long⟩)
    · exact inGap_of_pause mem off
    · obtain ⟨p, mp, rfl⟩ := isPoint_iff.mp stride.first
      by_cases paused : p.kind = .pause
      · obtain ⟨e, mem, off, same⟩ := pause_of_kind mp paused
        rw [← same]
        exact inGap_of_pause mem off
      · have held := mem_stops startup mp stride paused
        refine ⟨_, List.mem_append_left _ (List.mem_append_right _ held), Int.le_refl _, ?_⟩
        intro c closed
        cases closed
        exact stride.order
    · obtain ⟨g, held, covers⟩ := exists_cover stride long
      exact ⟨g, held, covers_contains stride.order covers⟩

theorem diagnosedLayer_ne_gap (loadThreshold : F64) (l : LinkSample) (p : Option ProxyTickRow)
    (h : Option HostSample) : diagnosedLayer loadThreshold l p h ≠ .gap := by
  unfold diagnosedLayer
  repeat' split
  all_goals exact Layer.noConfusion

theorem layer_ne_gap {s : LayerState} (mem : s ∈ r.layerState loadThreshold) : s.layer ≠ .gap := by
  obtain ⟨l, -, rfl⟩ := List.mem_map.mp mem
  exact diagnosedLayer_ne_gap loadThreshold l _ _

/-- At the instant of a link sample the state is a sample's of that instant. -/
theorem stateAt_link (loadThreshold : F64) {l : LinkSample} (mem : l ∈ r.linkSample) :
    ∃ s ∈ r.layerState loadThreshold, s.link.tsUs = l.tsUs ∧
      r.stateAt loadThreshold l.tsUs = some s := by
  cases found : r.stateAt loadThreshold l.tsUs with
  | none => exact absurd (stateAt_none.mp found l mem) (Int.lt_irrefl _)
  | some s =>
    obtain ⟨_, before, newest, _⟩ := stateAt_some found
    have reach := newest l mem (Int.le_refl _)
    exact ⟨s, (asOf_mem found).1, by omega, rfl⟩

theorem keepsContext_outside {l : LinkSample} (mem : l ∈ r.linkSample)
    (outside : ¬ r.InGap l.tsUs) : r.KeepsContext loadThreshold l.tsUs := by
  have apart : ∀ g ∈ r.gaps, ¬ g.span.Contains l.tsUs := fun g held inside =>
    outside ⟨g, held, inside⟩
  refine ⟨?_, ?_, ?_⟩
  · intro row listed
    rw [verdictAt_outside outside] at listed
    obtain ⟨s, held, rfl⟩ := List.mem_map.mp listed
    exact layer_ne_gap (asOf_mem (Option.mem_toList.mp held)).1
  · intro i held opened
    have joined : (i, none) ∈ leftJoin (fun i g => decide (g.span.Contains i.openedUs)) r.incident
        r.gaps := by
      refine mem_leftJoin_none.mpr ⟨held, fun g mg => decide_eq_false ?_⟩
      rw [opened]
      exact apart g mg
    exact ⟨_, (List.mem_insertionSort _).mpr (List.mem_map_of_mem joined), rfl⟩
  · intro row listed opened
    obtain ⟨⟨i, g⟩, joined, rfl⟩ := List.mem_map.mp ((List.mem_insertionSort _).mp listed)
    have instant : i.openedUs = l.tsUs := opened
    cases g with
    | some g =>
      obtain ⟨-, mg, inside⟩ := mem_leftJoin_some.mp joined
      rw [instant] at inside
      exact absurd (of_decide_eq_true inside) (apart g mg)
    | none =>
      obtain ⟨s, held, same, found⟩ := stateAt_link loadThreshold mem
      rw [← instant] at found
      refine ⟨s, held, same, found, ?_, layer_ne_gap held⟩
      change (r.stateAt loadThreshold i.openedUs).map LayerState.layer = _
      rw [found, Option.map_some]

end RecordTables

/-- The instant of a link sample keeps its reading, and an incident opened there its context,
exactly when no silence begins at it. -/
theorem sample_keeps_context_iff (r : RecordTables) (loadThreshold : F64) (l : LinkSample)
    (mem : l ∈ r.linkSample) :
    r.KeepsContext loadThreshold l.tsUs ↔ ¬ r.SilenceOpens l.tsUs := by
  rw [← RecordTables.inGap_sample_iff (RecordTables.link_isSample mem)]
  constructor
  · intro keeps inside
    have refusal : ∃ g ∈ r.gaps, g.span.Contains l.tsUs ∧
        r.verdictAt loadThreshold l.tsUs = [⟨none, .gap, some g.span⟩] :=
      RecordTables.verdictAt_inGap inside
    obtain ⟨g, -, -, refused⟩ := refusal
    have listed : (⟨none, .gap, some g.span⟩ : VerdictRow) ∈ r.verdictAt loadThreshold l.tsUs := by
      rw [refused]
      exact List.mem_singleton_self _
    exact keeps.verdict _ listed rfl
  · exact RecordTables.keepsContext_outside mem

/-- The gateway drops at 20 s, the daemon crashes, and its next life starts at 100 s. -/
def crashedAtDrop : RecordTables :=
  ⟨[.gatewayOnly 20000000 .fail], [], [], [], [], [⟨100000000, true, none, .startup⟩],
    [⟨"gw-drop-20", 20000000, none, "gw-drop", "gw=FAIL"⟩]⟩

theorem sample_keeps_context_iff_crashedAtDrop :
    crashedAtDrop.KeepsContext .zero 20000000 ↔ ¬ crashedAtDrop.SilenceOpens 20000000 :=
  sample_keeps_context_iff crashedAtDrop .zero (.gatewayOnly 20000000 .fail)
    (List.mem_singleton_self _)

/-- The incident of the last tick before the crash is shown without its context. -/
theorem incident_loses_context :
    (∃ row ∈ crashedAtDrop.incidentContext .zero, row.openedUs = 20000000 ∧
      row.layer = some .gap ∧ row.state.isNone) ∧
      ∃ row ∈ crashedAtDrop.verdictAt .zero 20000000, row.layer = .gap := by
  decide

end NetObserver
