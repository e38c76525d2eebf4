import NetObserver.Runs

/-! The bounded filter that keeps samples from before a session edge out of the window. -/

namespace NetObserver

def channelCap : Nat := 256

/-- Monotonic instants and durations are in nanoseconds. -/
def resumeDrain : Nat := 5 * 1000000000

def resumeDrainMaxSamples : Nat := 2 * channelCap

structure ResumeGate where
  appliedResumeUs : Int
  openUntil : Option Nat
  dropped : Nat

namespace ResumeGate

def new : ResumeGate := ⟨0, none, 0⟩

def close (g : ResumeGate) : ResumeGate := { g with openUntil := none }

/-- Whether the published epoch is a new edge; an accepted one opens the filter again. -/
def observeEdge (g : ResumeGate) (resumeUs : Int) (now : Nat) : ResumeGate × Bool :=
  if resumeUs = g.appliedResumeUs then (g, false)
  else
    ({ g.close with appliedResumeUs := resumeUs, openUntil := some (now + resumeDrain), dropped := 0 },
      true)

/-- Whether a sample has to be kept out; each bound closes the filter when it is reached. -/
def shouldDrop (g : ResumeGate) (tsUs : Int) (now : Nat) : ResumeGate × Bool :=
  match g.openUntil with
  | none => (g, false)
  | some deadline =>
    if deadline ≤ now then (g.close, false)
    else if g.appliedResumeUs ≤ tsUs then (g, false)
    else
      let counted := { g with dropped := g.dropped + 1 }
      if resumeDrainMaxSamples ≤ counted.dropped then (counted.close, true) else (counted, true)

end ResumeGate

inductive GateCall where
  | observeEdge (resumeUs : Int) (now : Nat)
  | shouldDrop (tsUs : Int) (now : Nat)

def GateCall.now : GateCall → Nat
  | .observeEdge _ now => now
  | .shouldDrop _ now => now

namespace ResumeGate

def call (g : ResumeGate) : GateCall → ResumeGate × Bool
  | .observeEdge resumeUs now => g.observeEdge resumeUs now
  | .shouldDrop tsUs now => g.shouldDrop tsUs now

def after (g : ResumeGate) (calls : List GateCall) : ResumeGate :=
  calls.foldl (fun g c => (g.call c).1) g

def drops : ResumeGate → List GateCall → Nat
  | _, [] => 0
  | g, .observeEdge resumeUs now :: calls => drops (g.observeEdge resumeUs now).1 calls
  | g, .shouldDrop tsUs now :: calls =>
    (if (g.shouldDrop tsUs now).2 then 1 else 0) + drops (g.shouldDrop tsUs now).1 calls

def NoEdge : ResumeGate → List GateCall → Prop
  | _, [] => True
  | g, .observeEdge resumeUs now :: calls =>
    (g.observeEdge resumeUs now).2 = false ∧ NoEdge (g.observeEdge resumeUs now).1 calls
  | g, .shouldDrop tsUs now :: calls => NoEdge (g.shouldDrop tsUs now).1 calls

/-- A gate some calls after an edge to `resumeUs` whose filter ends at `deadline`: `count`
samples were kept out since, and the last call was at `latest`. -/
structure Draining (g : ResumeGate) (resumeUs : Int) (deadline latest : Nat) (count : Nat) :
    Prop where
  applied : g.appliedResumeUs = resumeUs
  counted : g.dropped = count
  bounded : count ≤ resumeDrainMaxSamples
  opened : ∀ d, g.openUntil = some d → d = deadline ∧ count < resumeDrainMaxSamples
  closed : g.openUntil = none → count = resumeDrainMaxSamples ∨ deadline ≤ latest

/-- The four answers of the filter: closed, past its deadline, a fresh sample, a stale one. -/
theorem shouldDrop_cases (g : ResumeGate) (tsUs : Int) (now : Nat) :
    (g.openUntil = none ∧ g.shouldDrop tsUs now = (g, false)) ∨
    (∃ d, g.openUntil = some d ∧ d ≤ now ∧ g.shouldDrop tsUs now = (g.close, false)) ∨
    (∃ d, g.openUntil = some d ∧ now < d ∧ g.appliedResumeUs ≤ tsUs ∧
      g.shouldDrop tsUs now = (g, false)) ∨
    (∃ d openUntil, g.openUntil = some d ∧ now < d ∧ tsUs < g.appliedResumeUs ∧
      (openUntil = some d ∧ g.dropped + 1 < resumeDrainMaxSamples ∨
        openUntil = none ∧ resumeDrainMaxSamples ≤ g.dropped + 1) ∧
      g.shouldDrop tsUs now =
        ({ g with openUntil := openUntil, dropped := g.dropped + 1 }, true)) := by
  obtain ⟨applied, openUntil, dropped⟩ := g
  cases openUntil with
  | none => exact .inl ⟨rfl, rfl⟩
  | some d =>
    by_cases late : d ≤ now
    · exact .inr (.inl ⟨d, rfl, late, if_pos late⟩)
    · have early : now < d := Nat.lt_of_not_le late
      by_cases fresh : applied ≤ tsUs
      · exact .inr (.inr (.inl ⟨d, rfl, early, fresh, (if_neg late).trans (if_pos fresh)⟩))
      · have stale : tsUs < applied := Int.lt_of_not_ge fresh
        by_cases full : resumeDrainMaxSamples ≤ dropped + 1
        · exact .inr (.inr (.inr ⟨d, none, rfl, early, stale, .inr ⟨rfl, full⟩,
            (if_neg late).trans ((if_neg fresh).trans (if_pos full))⟩))
        · exact .inr (.inr (.inr ⟨d, some d, rfl, early, stale, .inl ⟨rfl, Nat.lt_of_not_le full⟩,
            (if_neg late).trans ((if_neg fresh).trans (if_neg full))⟩))

theorem Draining.shouldDrop {g : ResumeGate} {resumeUs : Int} {deadline latest now : Nat}
    {count : Nat} (h : g.Draining resumeUs deadline latest count) (later : latest ≤ now)
    (tsUs : Int) :
    ((g.shouldDrop tsUs now).2 = true ↔
      tsUs < resumeUs ∧ now < deadline ∧ count < resumeDrainMaxSamples) ∧
    (g.shouldDrop tsUs now).1.Draining resumeUs deadline now
      ((if (g.shouldDrop tsUs now).2 then 1 else 0) + count) := by
  obtain ⟨applied, counted, bounded, opened, closed⟩ := h
  rcases g.shouldDrop_cases tsUs now with
    ⟨shut, eq⟩ | ⟨d, until_, late, eq⟩ | ⟨d, until_, early, fresh, eq⟩ |
    ⟨d, openUntil, until_, early, stale, room, eq⟩
  · have reached := closed shut
    rw [eq]
    refine ⟨iff_of_false Bool.false_ne_true (by omega), ?_⟩
    rw [if_neg Bool.false_ne_true, Nat.zero_add]
    exact ⟨applied, counted, bounded, opened, fun _ => by omega⟩
  · obtain ⟨rfl, _⟩ := opened d until_
    rw [eq]
    refine ⟨iff_of_false Bool.false_ne_true (by omega), ?_⟩
    rw [if_neg Bool.false_ne_true, Nat.zero_add]
    exact ⟨applied, counted, bounded, fun _ shut => (by cases shut), fun _ => .inr late⟩
  · rw [eq]
    refine ⟨iff_of_false Bool.false_ne_true (by omega), ?_⟩
    rw [if_neg Bool.false_ne_true, Nat.zero_add]
    refine ⟨applied, counted, bounded, opened, fun shut => ?_⟩
    rw [until_] at shut
    cases shut
  · obtain ⟨rfl, free⟩ := opened d until_
    rw [eq]
    refine ⟨iff_of_true rfl ⟨by omega, early, free⟩, ?_⟩
    rw [if_pos rfl]
    refine ⟨applied, by rw [Nat.add_comm, ← counted], by omega, ?_, ?_⟩
    · intro e same
      rcases room with ⟨rfl, below⟩ | ⟨rfl, _⟩
      · cases same
        exact ⟨rfl, by omega⟩
      · cases same
    · intro shut
      rcases room with ⟨rfl, _⟩ | ⟨rfl, full⟩
      · cases shut
      · exact .inl (by omega)

theorem draining_of_edge {g : ResumeGate} {resumeUs : Int} {now : Nat}
    (accepted : (g.observeEdge resumeUs now).2 = true) :
    (g.observeEdge resumeUs now).1.Draining resumeUs (now + resumeDrain) now 0 := by
  unfold observeEdge at accepted ⊢
  by_cases same : resumeUs = g.appliedResumeUs
  · rw [if_pos same] at accepted
    cases accepted
  · rw [if_neg same]
    refine ⟨rfl, rfl, Nat.zero_le _, fun d eq => ?_, fun shut => (by cases shut)⟩
    cases eq
    exact ⟨rfl, by decide⟩

theorem Draining.observeEdge {g : ResumeGate} {resumeUs other : Int}
    {deadline latest now : Nat} {count : Nat}
    (h : g.Draining resumeUs deadline latest count) (later : latest ≤ now)
    (refused : (g.observeEdge other now).2 = false) :
    (g.observeEdge other now).1.Draining resumeUs deadline now count := by
  unfold ResumeGate.observeEdge at refused ⊢
  by_cases same : other = g.appliedResumeUs
  · rw [if_pos same]
    refine ⟨h.applied, h.counted, h.bounded, h.opened, fun shut => ?_⟩
    have reached := h.closed shut
    omega
  · rw [if_neg same] at refused
    cases refused

def Ordered (calls : List GateCall) : Prop := calls.Pairwise fun a b => a.now ≤ b.now

theorem Draining.after {g : ResumeGate} {resumeUs : Int} {deadline latest : Nat} {count : Nat}
    {calls : List GateCall} (h : g.Draining resumeUs deadline latest count)
    (later : ∀ c ∈ calls, latest ≤ c.now) (ordered : Ordered calls) (noEdge : g.NoEdge calls) :
    ∃ last, (last = latest ∨ ∃ c ∈ calls, last = c.now) ∧
      (g.after calls).Draining resumeUs deadline last (g.drops calls + count) := by
  induction calls generalizing g latest count with
  | nil => exact ⟨latest, .inl rfl, by simpa [drops, ResumeGate.after] using h⟩
  | cons c calls ih =>
    obtain ⟨first, rest⟩ := List.pairwise_cons.mp ordered
    have now := later c List.mem_cons_self
    cases c with
    | observeEdge other at_ =>
      have next := h.observeEdge now noEdge.1
      obtain ⟨last, seen, drained⟩ := ih next first rest noEdge.2
      refine ⟨last, .inr ?_, drained⟩
      rcases seen with rfl | ⟨d, mem, rfl⟩
      · exact ⟨_, List.mem_cons_self, rfl⟩
      · exact ⟨d, List.mem_cons_of_mem _ mem, rfl⟩
    | shouldDrop tsUs at_ =>
      have next := (h.shouldDrop now tsUs).2
      obtain ⟨last, seen, drained⟩ := ih next first rest noEdge
      refine ⟨last, .inr ?_, ?_⟩
      · rcases seen with rfl | ⟨d, mem, rfl⟩
        · exact ⟨_, List.mem_cons_self, rfl⟩
        · exact ⟨d, List.mem_cons_of_mem _ mem, rfl⟩
      · rw [show g.drops (.shouldDrop tsUs at_ :: calls) + count =
          (g.shouldDrop tsUs at_).1.drops calls +
            ((if (g.shouldDrop tsUs at_).2 then 1 else 0) + count) by simp only [drops]; omega]
        exact drained

theorem noEdge_append {g : ResumeGate} {first rest : List GateCall}
    (h : g.NoEdge (first ++ rest)) : g.NoEdge first ∧ (g.after first).NoEdge rest := by
  induction first generalizing g with
  | nil => exact ⟨trivial, h⟩
  | cons c first ih =>
    cases c with
    | observeEdge other now =>
      obtain ⟨refused, later⟩ := h
      obtain ⟨here, there⟩ := ih later
      exact ⟨⟨refused, here⟩, there⟩
    | shouldDrop tsUs now => exact ih h

/-- A closed gate admits every sample until the next accepted edge. -/
theorem drops_of_closed {g : ResumeGate} {calls : List GateCall} (closed : g.openUntil = none)
    (noEdge : g.NoEdge calls) : g.drops calls = 0 := by
  induction calls generalizing g with
  | nil => rfl
  | cons c calls ih =>
    cases c with
    | observeEdge other now =>
      obtain ⟨refused, later⟩ := noEdge
      have same : (g.observeEdge other now).1 = g := by
        unfold observeEdge at refused ⊢
        split at refused
        next eq => rw [if_pos eq]
        next => cases refused
      rw [same] at later
      rw [drops, same]
      exact ih closed later
    | shouldDrop tsUs now =>
      have same : g.shouldDrop tsUs now = (g, false) := by
        unfold shouldDrop
        rw [closed]
      simp only [NoEdge, same] at noEdge
      simp [drops, same, ih closed noEdge]

/-- What follows an accepted edge at `edgeNow` until the next one, `g` being the gate it left:
exactly the samples from before its epoch are kept out, until one of the bounds is reached, and
none after that. -/
structure BoundedDrain (g : ResumeGate) (resumeUs : Int) (edgeNow : Nat) (calls : List GateCall) :
    Prop where
  capped : g.drops calls ≤ 2 * channelCap
  answer : ∀ first tsUs now rest, calls = first ++ .shouldDrop tsUs now :: rest →
    (((g.after first).shouldDrop tsUs now).2 = true ↔
      tsUs < resumeUs ∧ now < edgeNow + resumeDrain ∧ g.drops first < 2 * channelCap)
  shut : ∀ first tsUs now rest, calls = first ++ .shouldDrop tsUs now :: rest →
    ((g.after first).shouldDrop tsUs now).2 = false →
    edgeNow + resumeDrain ≤ now ∨ 2 * channelCap ≤ g.drops first →
    ((g.after first).shouldDrop tsUs now).1.drops rest = 0
  stillOpen : ∀ first rest, calls = first ++ rest → (g.after first).openUntil = none →
    g.drops first = 2 * channelCap ∨ ∃ c ∈ first, edgeNow + resumeDrain ≤ c.now

theorem boundedDrain_of_edge {g : ResumeGate} {resumeUs : Int} {edgeNow : Nat}
    {calls : List GateCall} (h : g.Draining resumeUs (edgeNow + resumeDrain) edgeNow 0)
    (later : ∀ c ∈ calls, edgeNow ≤ c.now) (ordered : Ordered calls) (noEdge : g.NoEdge calls) :
    g.BoundedDrain resumeUs edgeNow calls := by
  have reached : ∀ first rest, calls = first ++ rest → ∃ last,
      (last = edgeNow ∨ ∃ c ∈ first, last = c.now) ∧
      (g.after first).Draining resumeUs (edgeNow + resumeDrain) last (g.drops first) := by
    rintro first rest rfl
    exact h.after (fun c mem => later c (List.mem_append_left _ mem))
      (List.pairwise_append.mp ordered).1 (noEdge_append noEdge).1
  have judged : ∀ first tsUs now rest, calls = first ++ .shouldDrop tsUs now :: rest → ∃ last,
      last ≤ now ∧
      (g.after first).Draining resumeUs (edgeNow + resumeDrain) last (g.drops first) := by
    intro first tsUs now rest split
    obtain ⟨last, seen, draining⟩ := reached first _ split
    refine ⟨last, ?_, draining⟩
    subst split
    rcases seen with rfl | ⟨c, mem, rfl⟩
    · exact later _ (List.mem_append_right _ List.mem_cons_self)
    · exact (List.pairwise_append.mp ordered).2.2 c mem _ List.mem_cons_self
  refine ⟨?_, ?_, ?_, ?_⟩
  · obtain ⟨last, _, draining⟩ := reached calls [] (List.append_nil _).symm
    exact draining.bounded
  · intro first tsUs now rest split
    obtain ⟨last, before, draining⟩ := judged first tsUs now rest split
    exact (draining.shouldDrop before tsUs).1
  · intro first tsUs now rest split admitted bound
    obtain ⟨last, before, draining⟩ := judged first tsUs now rest split
    have noEdgeRest : ((g.after first).shouldDrop tsUs now).1.NoEdge rest := by
      rw [split] at noEdge
      exact (noEdge_append noEdge).2
    refine drops_of_closed ?_ noEdgeRest
    have room := draining.bounded
    unfold resumeDrainMaxSamples at room
    rcases (g.after first).shouldDrop_cases tsUs now with
      ⟨shut, eq⟩ | ⟨d, _, _, eq⟩ | ⟨d, until_, early, _, eq⟩ | ⟨d, _, _, _, _, _, eq⟩
    · rw [eq]
      exact shut
    · rw [eq]
      rfl
    · obtain ⟨rfl, free⟩ := draining.opened d until_
      unfold resumeDrainMaxSamples at free
      omega
    · rw [eq] at admitted
      cases admitted
  · intro first rest split closed
    obtain ⟨last, seen, draining⟩ := reached first rest split
    rcases draining.closed closed with full | late
    · exact .inl full
    · rcases seen with rfl | ⟨c, mem, rfl⟩
      · exact absurd late (by unfold resumeDrain; omega)
      · exact .inr ⟨c, mem, late⟩

/-- The filter is bounded over every ordered run of calls: before the first accepted edge
nothing is kept out, and after each of them only what its bounds allow. -/
theorem drain_bounded :
    (∀ calls, new.NoEdge calls → new.drops calls = 0) ∧
      ∀ before resumeUs edgeNow calls,
        Ordered (before ++ .observeEdge resumeUs edgeNow :: calls) →
        ((new.after before).observeEdge resumeUs edgeNow).2 = true →
        ((new.after before).observeEdge resumeUs edgeNow).1.NoEdge calls →
        ((new.after before).observeEdge resumeUs edgeNow).1.BoundedDrain resumeUs edgeNow calls := by
  refine ⟨fun calls noEdge => drops_of_closed rfl noEdge, ?_⟩
  intro before resumeUs edgeNow calls ordered accepted noEdge
  obtain ⟨later, rest⟩ := List.pairwise_cons.mp (List.pairwise_append.mp ordered).2.1
  exact boundedDrain_of_edge (draining_of_edge accepted) later rest noEdge

theorem drain_bounded_three_samples :
    (new.observeEdge 100 7).1.BoundedDrain 100 7
      [.shouldDrop 90 8, .shouldDrop 100 9, .shouldDrop 95 6000000000] := by
  refine drain_bounded.2 [] 100 7 _ ?_ rfl trivial
  simp [Ordered, GateCall.now]

end ResumeGate

end NetObserver
