import NetObserver.DaemonLives
import NetObserver.IncidentEpisodes

/-! The order law of the incident table over every sequence of lives. -/

namespace NetObserver

section Lift

variable {η : Type*} {P : Trigger η → Prop} {Q : HandlerCall → Prop}

/-- What each trigger keeps and tells, the engine keeps and tells. -/
theorem TriggerEngine.step_lift (st : EngineStep)
    (each : ∀ t, P t → P (t.step st).1 ∧ ∀ call ∈ (t.step st).2, Q call)
    {e : TriggerEngine η} (kept : ∀ t ∈ e.triggers, P t) :
    (∀ t ∈ (e.step st).1.triggers, P t) ∧ ∀ d ∈ (e.step st).2, Q d.2.2 := by
  constructor
  · intro t mem
    rw [e.step_triggers st] at mem
    obtain ⟨u, listed, rfl⟩ := List.mem_map.mp mem
    exact (each u (kept u listed)).1
  · intro d mem
    rw [e.step_calls st] at mem
    obtain ⟨u, listed, told⟩ := Runs.mem_stepAll_outputs mem
    obtain ⟨call, made, sent⟩ := List.mem_flatMap.mp told
    obtain ⟨slot, _, same⟩ := List.mem_map.mp sent
    rw [← same]
    exact (each u (kept u listed)).2 call made

/-- So does a turn of the consumer, which asks the engine of an edge and of the sample it took. -/
theorem Consumer.take_lift (sample : Sample)
    (each : ∀ st, (∀ w nowUs, st = EngineStep.sample w nowUs → nowUs = sample.tsUs) →
      ∀ t, P t → P (t.step st).1 ∧ ∀ call ∈ (t.step st).2, Q call)
    {c : Consumer η} (kept : ∀ t ∈ c.engine.triggers, P t) (shared : Shared) (now : Nat) :
    (∀ t ∈ (c.take shared sample now).done.engine.triggers, P t) ∧
      ∀ d ∈ (c.take shared sample now).calls, Q d.2.2 := by
  have judged {b : Consumer η} (kept : ∀ t ∈ b.engine.triggers, P t) :
      (∀ t ∈ (b.judge sample now).1.engine.triggers, P t) ∧
        ∀ d ∈ (b.judge sample now).2, Q d.2.2 := by
    simp only [judge]
    split
    next => exact ⟨kept, fun d mem => absurd mem List.not_mem_nil⟩
    next =>
      split
      next => exact ⟨kept, fun d mem => absurd mem List.not_mem_nil⟩
      next =>
        refine TriggerEngine.step_lift (.sample (b.window.push sample) sample.tsUs) ?_ kept
        exact each _ fun _ _ eq => (EngineStep.sample.inj eq).2.symm
  simp only [take]
  split
  next =>
    obtain ⟨edged, closings⟩ := TriggerEngine.step_lift (.edge (closedAtUs shared.sessionEndUs
      (c.gate.observeEdge shared.resumeAtUs now).1.appliedResumeUs))
      (each _ fun _ _ eq => EngineStep.noConfusion eq) kept
    obtain ⟨after, calls⟩ := judged (b := (applyEdge
      { c with gate := (c.gate.observeEdge shared.resumeAtUs now).1 } shared).1) edged
    refine ⟨after, fun d mem => ?_⟩
    rcases List.mem_append.mp mem with closing | call
    · exact closings d closing
    · exact calls d call
  next => exact judged kept

end Lift

/-- The row's id is one a rule minted when the incident opened. -/
def Incident.Minted (i : Incident) : Prop :=
  ∃ ruleId, Dashless ruleId ∧ i.id = mintIncidentId ruleId i.openedUs

def Incident.InOrder (i : Incident) : Prop :=
  ∀ closedUs, i.closedUs = some closedUs → i.openedUs ≤ closedUs

/-- An opening names its own moment, a closing is no earlier than the moment its id names. -/
def IncidentWrite.Sound : IncidentWrite → Prop
  | .openIncident i => i.Minted ∧ i.closedUs = none
  | .writeTriggerFired _ => True
  | .closeIncident id closedUs =>
    ∃ ruleId openedUs, Dashless ruleId ∧ id = mintIncidentId ruleId openedUs ∧
      openedUs ≤ closedUs

def HandlerCall.Sound (call : HandlerCall) : Prop := ∀ w ∈ call.writes, w.Sound

structure Trigger.Named {η : Type*} (t : Trigger η) : Prop where
  dashless : Dashless t.condition.id
  opened : ∀ id openedUs, t.openIncident = some (id, openedUs) →
    id = mintIncidentId t.condition.id openedUs

theorem Trigger.step_named {η : Type*} {t : Trigger η} (st : EngineStep) (named : t.Named) :
    (t.step st).1.Named ∧ ∀ call ∈ (t.step st).2, call.Sound := by
  rcases t.step_cases st with
    ⟨_, nowUs, fire, _, _, _, _, eq⟩ | ⟨id, openedUs, closedUs, _, own, order, _, eq⟩ | ⟨_, _, eq⟩
  · rw [eq]
    refine ⟨⟨named.dashless, ?_⟩, ?_⟩
    · intro id openedUs opened
      obtain ⟨rfl, rfl⟩ := Prod.mk.inj (Option.some.inj opened)
      rfl
    · intro call mem w made
      obtain rfl := List.mem_singleton.mp mem
      rcases List.mem_cons.mp made with rfl | made
      · exact ⟨⟨t.condition.id, named.dashless, rfl⟩, rfl⟩
      · obtain rfl := List.mem_singleton.mp made
        trivial
  · rw [eq]
    refine ⟨⟨named.dashless, fun _ _ opened => by cases opened⟩, ?_⟩
    intro call mem w made
    obtain rfl := List.mem_singleton.mp mem
    obtain rfl := List.mem_singleton.mp made
    exact ⟨_, _, named.dashless, named.opened id openedUs own, order⟩
  · rw [eq]
    exact ⟨⟨named.dashless, named.opened⟩, fun _ mem => absurd mem List.not_mem_nil⟩

theorem DaemonRule.trigger_named (localInstant : Int → String) (r : DaemonRule) :
    (r.trigger localInstant).Named where
  dashless := r.rule.dashless localInstant
  opened := fun _ _ opened => by cases opened

theorem mem_recordWrites {e : TriggerEngine IncidentHandler} {calls : List Delivery}
    {w : IncidentWrite} (mem : w ∈ recordWrites e calls) : ∃ d ∈ calls, w ∈ d.2.2.writes := by
  obtain ⟨d, listed, made⟩ := List.mem_flatMap.mp mem
  split at made
  next => exact ⟨d, listed, made⟩
  next => cases made

/-- A sound write keeps the rows minted and in order: the row it closes opened at the moment its
id names. -/
theorem IncidentRecord.write_kept {r : IncidentRecord}
    (rows : ∀ i ∈ r.incidents, i.Minted ∧ i.InOrder) {w : IncidentWrite} (sound : w.Sound) :
    ∀ i ∈ (r.write w).incidents, i.Minted ∧ i.InOrder := by
  cases w with
  | openIncident i =>
    simp only [write]
    split
    next => exact rows
    next =>
      intro j mem
      rcases List.mem_append.mp mem with old | new
      · exact rows j old
      · obtain rfl := List.mem_singleton.mp new
        refine ⟨sound.1, fun closedUs closed => ?_⟩
        rw [sound.2] at closed
        cases closed
  | writeTriggerFired t => exact rows
  | closeIncident id closedUs =>
    intro j mem
    obtain ⟨row, old, rfl⟩ := List.mem_map.mp mem
    have kept := rows row old
    by_cases same : row.id = id
    · rw [if_pos same]
      obtain ⟨ruleId, openedUs, dashless, minted, order⟩ := sound
      obtain ⟨ruleId', dashless', minted'⟩ := kept.1
      have moment : row.openedUs = openedUs :=
        mintIncidentId_opened dashless' dashless (by rw [← minted', same, minted])
      refine ⟨⟨ruleId', dashless', minted'⟩, fun closed stamped => ?_⟩
      obtain rfl := Option.some.inj stamped
      change row.openedUs ≤ closedUs
      omega
    · rw [if_neg same]
      exact kept

theorem Startup.le_staleCloseTs {su : Startup} {r : IncidentRecord} {openedUs : Int} :
    openedUs ≤ su.staleCloseTs r ↔
      if su.readOk = true ∧ r.samples ≠ [] then ∃ row ∈ r.samples, openedUs ≤ row.2
      else openedUs ≤ su.nowUs := by
  by_cases read : su.readOk = true
  · cases newest : r.latestSampleTsUs with
    | none =>
      have empty := IncidentRecord.latestSampleTsUs_eq_none.mp newest
      simp [staleCloseTs, read, newest, empty]
    | some newestUs =>
      have filled : r.samples ≠ [] := by
        intro empty
        rw [IncidentRecord.latestSampleTsUs_eq_none.mpr empty] at newest
        cases newest
      rw [if_pos ⟨read, filled⟩, ← IncidentRecord.le_latestSampleTsUs newest]
      simp [staleCloseTs, read, newest]
  · simp [staleCloseTs, read]

/-- A close leaves the table ordered exactly where the rows closed before were in order and the
startup meets the open ones. -/
theorem Startup.closeStale_ordered {su : Startup} {r : IncidentRecord} :
    (su.closeStale r).Ordered ↔ (∀ i ∈ r.incidents, i.InOrder) ∧ su.Meets r := by
  cases write : su.closeOk with
  | false =>
    have untouched : su.closeStale r = r := by simp [closeStale, write]
    rw [untouched]
    constructor
    · intro ordered
      have closed (i : Incident) (mem : i ∈ r.incidents) : i.closedUs ≠ none := by
        obtain ⟨closedUs, closed, _⟩ := ordered i mem
        simp [closed]
      refine ⟨?_, fun i mem unclosed => absurd unclosed (closed i mem),
        fun i mem unclosed => absurd unclosed (closed i mem)⟩
      intro i mem stamp stamped
      obtain ⟨closedUs, closed, order⟩ := ordered i mem
      obtain rfl := Option.some.inj (closed.symm.trans stamped)
      exact order
    · rintro ⟨inOrder, meets⟩ i mem
      cases closed : i.closedUs with
      | none => exact absurd (meets.closes i mem closed) (by simp [write])
      | some closedUs => exact ⟨closedUs, rfl, inOrder i mem closedUs closed⟩
  | true =>
    have stamped : (su.closeStale r).incidents = r.incidents.map fun i =>
        if i.closedUs = none then { i with closedUs := some (su.staleCloseTs r) } else i := by
      simp [closeStale, write, IncidentRecord.closeOpenIncidents]
    constructor
    · intro ordered
      have each (i : Incident) (mem : i ∈ r.incidents) := ordered _ (by
        rw [stamped]
        exact List.mem_map_of_mem mem)
      refine ⟨?_, fun _ _ _ => write, ?_⟩
      · intro i mem stamp closed
        obtain ⟨closedUs, same, order⟩ := each i mem
        rw [if_neg (by simp [closed])] at same order
        obtain rfl := Option.some.inj (closed.symm.trans same)
        exact order
      · intro i mem unclosed
        obtain ⟨closedUs, same, order⟩ := each i mem
        rw [if_pos unclosed] at same order
        obtain rfl := Option.some.inj same
        exact le_staleCloseTs.mp order
    · rintro ⟨inOrder, meets⟩ i mem
      rw [stamped] at mem
      obtain ⟨row, old, rfl⟩ := List.mem_map.mp mem
      cases closed : row.closedUs with
      | none =>
        rw [if_pos rfl]
        exact ⟨_, rfl, le_staleCloseTs.mpr (meets.reaches row old closed)⟩
      | some closedUs =>
        rw [if_neg (by simp)]
        exact ⟨closedUs, closed, inOrder row old closedUs closed⟩

/-- Of the lives so far: every row was minted and none was closed before its opening, and what
the running process has open or has still to write is of that kind. -/
structure Lives.Sound (s : Lives) : Prop where
  rows : ∀ i ∈ s.record.incidents, i.Minted ∧ i.InOrder
  named : ∀ l, s.life = some l → ∀ t ∈ l.consumer.engine.triggers, t.Named
  pending : ∀ l, s.life = some l → ∀ w ∈ l.pending, w.Sound

theorem Lives.sound_fresh : fresh.Sound where
  rows := fun _ mem => absurd mem List.not_mem_nil
  named := fun _ running => by cases running
  pending := fun _ running => by cases running

theorem Startup.closeStale_minted {su : Startup} {r : IncidentRecord}
    (minted : ∀ i ∈ r.incidents, i.Minted) : ∀ i ∈ (su.closeStale r).incidents, i.Minted := by
  unfold closeStale
  split
  next =>
    intro i mem
    obtain ⟨row, old, rfl⟩ := List.mem_map.mp mem
    obtain ⟨ruleId, dashless, id⟩ := minted row old
    refine ⟨ruleId, dashless, ?_⟩
    split
    next => exact id
    next => exact id
  next => exact minted

/-- The guard of the order law: a startup meets the record it finds. -/
def LifeStep.Guarded (s : Lives) : LifeStep → Prop
  | .startup su => su.Meets s.record
  | _ => True

theorem Lives.step_sound {s t : Lives} {step : LifeStep} (stepped : s.step step = some t)
    (guarded : step.Guarded s) (sound : s.Sound) : t.Sound := by
  rcases step_cases stepped with
    ⟨su, rfl, rfl⟩ | ⟨sample, landed, shared, now, consumer, rfl, running, rfl⟩ |
      ⟨consumer, w, pending, r, running, written, rfl⟩ | ⟨report, landed, l, running, rfl⟩ |
      ⟨table, cutoffUs, ok, r, l, rfl, running, pruned, rfl⟩ | rfl
  · have ordered := Startup.closeStale_ordered.mpr
      ⟨fun i mem => (sound.rows i mem).2, guarded⟩
    refine ⟨fun i mem => ⟨?_, ?_⟩, ?_, ?_⟩
    · exact Startup.closeStale_minted (fun i mem => (sound.rows i mem).1) i mem
    · intro stamp closed
      obtain ⟨closedUs, same, order⟩ := ordered i mem
      obtain rfl := Option.some.inj (same.symm.trans closed)
      exact order
    · intro l running t mem
      obtain rfl := Option.some.inj running
      obtain ⟨rule, _, rfl⟩ := List.mem_map.mp mem
      exact rule.trigger_named su.localInstant
    · intro l running w mem
      obtain rfl := Option.some.inj running
      cases mem
  · obtain ⟨named, told⟩ := Consumer.take_lift sample (Q := HandlerCall.Sound)
      (fun st _ t named => t.step_named st named) (sound.named _ running) shared now
    refine ⟨sound.rows, ?_, ?_⟩
    · intro l after
      obtain rfl := Option.some.inj after
      exact named
    · intro l after w mem
      obtain rfl := Option.some.inj after
      obtain ⟨d, listed, made⟩ := mem_recordWrites mem
      exact told d listed w made
  · have own := sound.pending _ running
    refine ⟨?_, ?_, ?_⟩
    · rcases written with rfl | rfl
      · exact sound.rows
      · exact IncidentRecord.write_kept sound.rows (own w (List.mem_cons_self ..))
    · intro l after
      obtain rfl := Option.some.inj after
      exact sound.named ⟨consumer, w :: pending⟩ running
    · intro l after v mem
      obtain rfl := Option.some.inj after
      exact own v (List.mem_cons_of_mem _ mem)
  · exact ⟨sound.rows, running ▸ sound.named, running ▸ sound.pending⟩
  · refine ⟨?_, running ▸ sound.named, running ▸ sound.pending⟩
    rcases pruned with rfl | rfl
    · exact sound.rows
    · intro i mem
      rw [IncidentRecord.pruneOlderThan_incidents] at mem
      exact sound.rows i mem
  · exact ⟨sound.rows, fun _ running => (by cases running), fun _ running => (by cases running)⟩

theorem Lives.startup_record {s t : Lives} {su : Startup}
    (stepped : s.step (.startup su) = some t) : t.record = su.closeStale s.record := by
  simp only [Lives.step] at stepped
  split at stepped
  next => rw [← Option.some.inj stepped]
  next => cases stepped

/-- Where all startups of a run meet the record they find, each leaves it ordered. -/
theorem Started.ordered {steps : List LifeStep}
    (meets : ∀ su before after, Started steps su before after → su.Meets before) {su : Startup}
    {before after : IncidentRecord} (started : Started steps su before after) :
    after.Ordered := by
  have here := meets su before after started
  obtain ⟨past, rest, s, t, split, reach, stepped, rfl, rfl⟩ := started
  have sound : s.Sound := by
    refine Runs.runSteps_guarded (G := fun u a => LifeStep.Guarded u a)
      (fun _ _ _ stepped guarded sound => Lives.step_sound stepped guarded sound) reach ?_
      Lives.sound_fresh
    intro early a later u v eq reached next
    cases a with
    | startup other =>
      exact meets other _ _ ⟨early, later ++ .startup su :: rest, u, v,
        (by rw [split, eq, List.append_assoc, List.cons_append]), reached, next, rfl, rfl⟩
    | _ => trivial
  rw [Lives.startup_record stepped, Startup.closeStale_ordered]
  exact ⟨fun i mem => (sound.rows i mem).2, here⟩

/-- Every startup of a run leaves every incident closed and none before its opening, exactly when
every startup of it meets the record it finds. -/
theorem startups_ordered_iff (steps : List LifeStep) :
    (∀ su before after, Started steps su before after → after.Ordered) ↔
      ∀ su before after, Started steps su before after → su.Meets before := by
  constructor
  · intro ordered su before after started
    have order := ordered su before after started
    obtain ⟨past, rest, s, t, split, reach, stepped, rfl, rfl⟩ := started
    rw [Lives.startup_record stepped, Startup.closeStale_ordered] at order
    exact order.2
  · intro meets su before after started
    exact started.ordered meets

def dropStartup (nowUs : Int) : Startup := ⟨[⟨.gwDrop, [.record], 0⟩], fun _ => "", true, nowUs, true⟩

/-- The gateway answers at 5 and is gone at 9, but the write of the second reading fails, and the
process ends with the incident it opened by it. -/
def unwrittenDrop : List LifeStep :=
  [.startup (dropStartup 0),
    .takeSample (.link (.gatewayOnly 5 .ok)) 1 (.start .passive) 0,
    .takeSample (.link (.gatewayOnly 9 .fail)) 0 (.start .passive) 0,
    .write true, .write true, .crash]

theorem incident_closed_before_opened :
    ¬ ∀ steps su before after, Started steps su before after → after.Ordered := by
  intro ordered
  have closed : ((Runs.runSteps Lives.step .fresh unwrittenDrop).bind fun s =>
      s.step (.startup (dropStartup 20))).map (fun t => t.record.incidents) =
        some [⟨"gw-drop-9", 9, some 5, "gw-drop", "gateway FAIL"⟩] := by
    decide
  obtain ⟨t, startup, incidents⟩ := Option.map_eq_some_iff.mp closed
  obtain ⟨s, reach, stepped⟩ := Option.bind_eq_some_iff.mp startup
  have order := ordered (unwrittenDrop ++ [.startup (dropStartup 20)]) _ _ _
    ⟨unwrittenDrop, [], s, t, rfl, reach, stepped, rfl, rfl⟩
  obtain ⟨closedUs, stamp, later⟩ := order _ (by rw [incidents]; exact List.mem_singleton_self _)
  obtain rfl := Option.some.inj stamp
  change (9 : Int) ≤ 5 at later
  omega

/-- The incidents a startup would find open, or will once the process has written them. -/
def Lives.Opens (s : Lives) (i : Incident) : Prop :=
  i ∈ s.record.incidents ∧ i.closedUs = none ∨
    ∃ l, s.life = some l ∧ .openIncident i ∈ l.pending

/-- Each of them has a sample at or after its opening. -/
def Lives.Covered (s : Lives) : Prop :=
  ∀ i, s.Opens i → ∃ row ∈ s.record.samples, i.openedUs ≤ row.2

/-- A step that costs no open incident its sample: what is judged has been written, a prune cuts
before every opening, and a startup reads and closes. -/
def LifeStep.Spares (s : Lives) : LifeStep → Prop
  | .startup su => su.readOk = true ∧ su.closeOk = true
  | .takeSample _ landed _ _ => 0 < landed
  | .prune _ cutoffUs _ => ∀ i, s.Opens i → cutoffUs ≤ i.openedUs
  | _ => True

theorem Trigger.step_firedAt {η : Type*} (t : Trigger η) {st : EngineStep} {tsUs : Int}
    (at_ : ∀ w nowUs, st = .sample w nowUs → nowUs = tsUs) :
    ∀ call ∈ (t.step st).2, ∀ i, .openIncident i ∈ call.writes → i.openedUs = tsUs := by
  intro call mem i made
  rcases t.step_cases st with
    ⟨w, nowUs, fire, asked, _, _, _, eq⟩ | ⟨_, _, _, _, _, _, _, eq⟩ | ⟨_, _, eq⟩
  · rw [eq] at mem
    obtain rfl := List.mem_singleton.mp mem
    rcases List.mem_cons.mp made with same | other
    · obtain rfl := IncidentWrite.openIncident.inj same
      exact at_ w nowUs asked
    · cases List.mem_singleton.mp other
  · rw [eq] at mem
    obtain rfl := List.mem_singleton.mp mem
    cases List.mem_singleton.mp made
  · rw [eq] at mem
    cases mem

theorem Startup.closeStale_closed {su : Startup} {r : IncidentRecord} (write : su.closeOk = true) :
    ∀ i ∈ (su.closeStale r).incidents, i.closedUs ≠ none := by
  intro i mem
  rw [closeStale, if_pos write] at mem
  obtain ⟨row, _, rfl⟩ := List.mem_map.mp mem
  split
  next => simp
  next closed => exact closed

/-- A write opens no incident but the one it is for. -/
theorem IncidentRecord.write_open {r : IncidentRecord} {w : IncidentWrite} {i : Incident}
    (mem : i ∈ (r.write w).incidents) (unclosed : i.closedUs = none) :
    i ∈ r.incidents ∨ w = .openIncident i := by
  cases w with
  | openIncident j =>
    simp only [write] at mem
    split at mem
    next => exact .inl mem
    next =>
      rcases List.mem_append.mp mem with old | new
      · exact .inl old
      · rw [List.mem_singleton.mp new]
        exact .inr rfl
  | writeTriggerFired t => exact .inl mem
  | closeIncident id closedUs =>
    obtain ⟨row, old, rfl⟩ := List.mem_map.mp mem
    by_cases same : row.id = id
    · rw [if_pos same] at unclosed
      cases unclosed
    · rw [if_neg same]
      exact .inl old

theorem Lives.step_covered {s t : Lives} {step : LifeStep} (stepped : s.step step = some t)
    (spares : step.Spares s) (covered : s.Covered) : t.Covered := by
  rcases step_cases stepped with
    ⟨su, rfl, rfl⟩ | ⟨sample, landed, shared, now, consumer, rfl, running, rfl⟩ |
      ⟨consumer, w, pending, r, running, written, rfl⟩ | ⟨report, landed, l, running, rfl⟩ |
      ⟨table, cutoffUs, ok, r, l, rfl, running, pruned, rfl⟩ | rfl
  · intro i opens
    rcases opens with ⟨mem, unclosed⟩ | ⟨l, running, mem⟩
    · exact absurd unclosed (Startup.closeStale_closed spares.2 i mem)
    · obtain rfl := Option.some.inj running
      cases mem
  · intro i opens
    rcases opens with opened | ⟨l, after, mem⟩
    · obtain ⟨row, there, late⟩ := covered i (.inl opened)
      exact ⟨row, List.mem_append_left _ there, late⟩
    · obtain rfl := Option.some.inj after
      obtain ⟨d, listed, made⟩ := mem_recordWrites mem
      have fired := (Consumer.take_lift sample (P := fun _ => True)
        (Q := fun call => ∀ i, .openIncident i ∈ call.writes → i.openedUs = sample.tsUs)
        (fun st at_ t _ => ⟨trivial, t.step_firedAt at_⟩) (c := consumer) (fun _ _ => trivial)
        shared now).2 d listed i made
      obtain ⟨table, there⟩ := sample.exists_landed spares
      exact ⟨_, List.mem_append_right _ there, fired.le⟩
  · have samples : r.samples = s.record.samples := by
      rcases written with rfl | rfl
      · rfl
      · exact s.record.write_samples w
    intro i opens
    rw [samples]
    refine covered i ?_
    rcases opens with ⟨mem, unclosed⟩ | ⟨l, after, mem⟩
    · rcases written with rfl | rfl
      · exact .inl ⟨mem, unclosed⟩
      · rcases IncidentRecord.write_open mem unclosed with old | rfl
        · exact .inl ⟨old, unclosed⟩
        · exact .inr ⟨_, running, List.mem_cons_self ..⟩
    · obtain rfl := Option.some.inj after
      exact .inr ⟨_, running, List.mem_cons_of_mem _ mem⟩
  · intro i opens
    have before : s.Opens i := by
      rcases opens with opened | ⟨l', after, mem⟩
      · exact .inl opened
      · exact .inr ⟨l', running.trans after, mem⟩
    obtain ⟨row, there, late⟩ := covered i before
    exact ⟨row, List.mem_append_left _ there, late⟩
  · have incidents : r.incidents = s.record.incidents := by
      rcases pruned with rfl | rfl
      · rfl
      · exact s.record.pruneOlderThan_incidents table cutoffUs
    intro i opens
    have before : s.Opens i := by
      rcases opens with ⟨mem, unclosed⟩ | ⟨l', after, mem⟩
      · exact .inl ⟨incidents ▸ mem, unclosed⟩
      · exact .inr ⟨l', running.trans after, mem⟩
    obtain ⟨row, there, late⟩ := covered i before
    have past := spares i before
    rcases pruned with rfl | rfl
    · exact ⟨row, there, late⟩
    · exact ⟨row, IncidentRecord.mem_pruneOlderThan there (by omega) table, late⟩
  · intro i opens
    rcases opens with opened | ⟨l, running, _⟩
    · exact covered i (.inl opened)
    · cases running

theorem Lives.covered_fresh : fresh.Covered := by
  rintro i (⟨mem, _⟩ | ⟨l, running, _⟩)
  · cases mem
  · cases running

/-- What can break the order law is a sample judged without being written, a prune past an open
incident, and a startup that cannot read or close: a run without these leaves the table ordered
at every startup. -/
theorem spared_startups_ordered {steps : List LifeStep}
    (spared : ∀ past step rest s t, steps = past ++ step :: rest →
      Runs.runSteps Lives.step .fresh past = some s → s.step step = some t → step.Spares s)
    {su : Startup} {before after : IncidentRecord} (started : Started steps su before after) :
    after.Ordered := by
  refine started.ordered ?_
  rintro other _ _ ⟨past, rest, s, t, split, reach, stepped, rfl, rfl⟩
  have own := spared past _ rest s t split reach stepped
  have covered : s.Covered := by
    refine Runs.runSteps_guarded (G := fun u a => LifeStep.Spares u a)
      (fun _ _ _ stepped spares covered => Lives.step_covered stepped spares covered) reach ?_
      Lives.covered_fresh
    intro early a later u v eq reached next
    refine spared early a (later ++ .startup other :: rest) u v ?_ reached next
    rw [split, eq, List.append_assoc, List.cons_append]
  refine ⟨fun _ _ _ => own.2, fun i mem unclosed => ?_⟩
  obtain ⟨row, there, late⟩ := covered i (.inl ⟨mem, unclosed⟩)
  rw [if_pos ⟨own.1, List.ne_nil_of_mem there⟩]
  exact ⟨row, there, late⟩

end NetObserver
