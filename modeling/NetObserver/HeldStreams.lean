import Mathlib.Data.List.Chain
import Mathlib.Data.List.Infix
import NetObserver.ProxyCollector

/-! The held reference streams: one session a path, kept open across the proxy collector's ticks,
and what a tick that finds one measures. -/

namespace NetObserver

open Machine

/-- How an operation under its deadline ends. -/
inductive Timed (α : Type) where
  | elapsed
  | failed
  | done (a : α)

inductive Roundtrip where
  | alive
  | tornDown
  | stalled
deriving DecidableEq

def headerEnd : List UInt8 := [13, 10, 13, 10]

def answerCap : Nat := 16384

/-- The reads of an answer, the `k`th next. -/
def readAnswer (reads : Nat → Timed (List UInt8)) : Nat → Nat → List UInt8 → Roundtrip
  -- every read before brought a byte, so the cap is met first
  | 0, _, _ => .alive
  | fuel + 1, k, seen =>
    match reads k with
    | .elapsed => .stalled
    | .failed => .tornDown
    | .done [] => .tornDown
    | .done (b :: chunk) =>
      let seen := seen ++ b :: chunk
      if headerEnd <:+: seen ∨ answerCap < seen.length then .alive
      else readAnswer reads fuel (k + 1) seen

def roundtrip (write : Timed Unit) (reads : Nat → Timed (List UInt8)) : Roundtrip :=
  match write with
  | .elapsed => .stalled
  | .failed => .tornDown
  | .done _ => readAnswer reads (answerCap + 1) 0 []

/-- A session and the tick that exercised it last, on the monotonic clock. -/
structure Held where
  openedAt : Nat
  lastChecked : Nat

/-- What a tick meets on one path: whether a connect and its handshake would go through, and how a
round trip on the session would end. -/
structure Attempt where
  establishes : Bool
  write : Timed Unit
  reads : Nat → Timed (List UInt8)

def Attempt.round (a : Attempt) : Roundtrip := roundtrip a.write a.reads

def staleIntervalMultiple : Nat := 3

def staleAfter (interval : Nat) : Nat := interval * staleIntervalMultiple

def secsU32 (ns : Nat) : Nat := min (ns / 1000000000) u32Max

def Held.ageS (h : Held) (now : Nat) : Nat := secsU32 (now - h.openedAt)

def establish (a : Attempt) (now : Nat) : Option Held :=
  if a.establishes then some ⟨now, now⟩ else none

def checkSlot (stale : Nat) (slot : Option Held) (now : Nat) (a : Attempt) :
    Option Held × Option StreamCheck :=
  -- a stream idle across a gap may be gone for no fault of the path: it is not measured
  match slot.filter fun h => now - h.lastChecked ≤ stale with
  | none => (establish a now, none)
  | some held =>
    match a.round with
    | .alive => (some { held with lastChecked := now }, some ⟨true, held.ageS now⟩)
    | .stalled => (none, some ⟨false, held.ageS now⟩)
    | .tornDown => (establish a now, none)

structure HeldReferenceStreams where
  direct : Option Held
  tun : Option Held

/-- A tick of the proxy collector: its tier, the clock, what the ports answer, and what the two
paths meet. -/
structure HeldTick where
  tier : ProbingTier
  now : Nat
  tsUs : Int
  answers : ProxyAnswers
  direct : Attempt
  tun : Attempt

namespace HeldReferenceStreams

def new : HeldReferenceStreams := ⟨none, none⟩

def check (s : HeldReferenceStreams) (stale : Nat) (t : HeldTick) :
    HeldReferenceStreams × StallReading :=
  let direct := checkSlot stale s.direct t.now t.direct
  let tun := checkSlot stale s.tun t.now t.tun
  (⟨direct.1, tun.1⟩, ⟨direct.2, tun.2⟩)

def close (_ : HeldReferenceStreams) : HeldReferenceStreams := ⟨none, none⟩

/-- The collector's tick with its adapter: withheld, the streams are closed. -/
def collect (s : HeldReferenceStreams) (stale : Nat) (memory : String → Option UrltestMemory)
    (t : HeldTick) :
    HeldReferenceStreams × (String → Option UrltestMemory) × List ProxySample :=
  let (s, stall) :=
    if t.tier.emits .heldStream then s.check stale t else (s.close, (⟨none, none⟩ : StallReading))
  (s, { t.answers with stall := stall }.collect t.tier memory t.tsUs)

end HeldReferenceStreams

/-! A round trip -/

/-- The bytes of the first reads, as far as they brought any. -/
def answered (reads : Nat → Timed (List UInt8)) (n : Nat) : List UInt8 :=
  (List.range n).flatMap fun k =>
    match reads k with
    | .done chunk => chunk
    | .elapsed | .failed => []

theorem answered_succ (reads : Nat → Timed (List UInt8)) (n : Nat) {chunk : List UInt8}
    (read : reads n = .done chunk) : answered reads (n + 1) = answered reads n ++ chunk := by
  rw [answered, List.range_succ, List.flatMap_append, List.flatMap_singleton, read]
  rfl

def Whole (bytes : List UInt8) : Prop := headerEnd <:+: bytes ∨ answerCap < bytes.length

theorem readAnswer_alive (reads : Nat → Timed (List UInt8)) {fuel k : Nat}
    (enough : answerCap < (answered reads k).length + fuel) (open_ : ¬ Whole (answered reads k)) :
    readAnswer reads fuel k (answered reads k) = .alive ↔
      ∃ n, k ≤ n ∧ (∀ i, k ≤ i → i ≤ n → ∃ b chunk, reads i = .done (b :: chunk)) ∧
        Whole (answered reads (n + 1)) := by
  induction fuel generalizing k with
  | zero => exact absurd (.inr (by omega)) open_
  | succ fuel ih =>
    rw [readAnswer]
    have stops (other : ∀ b chunk, reads k ≠ .done (b :: chunk)) :
        ¬ ∃ n, k ≤ n ∧ (∀ i, k ≤ i → i ≤ n → ∃ b chunk, reads i = .done (b :: chunk)) ∧
          Whole (answered reads (n + 1)) := fun ⟨n, le, all, _⟩ => by
      obtain ⟨b, chunk, read⟩ := all k (Nat.le_refl k) le
      exact other b chunk read
    split
    next read => exact iff_of_false nofun (stops fun b chunk is => by rw [read] at is; cases is)
    next read => exact iff_of_false nofun (stops fun b chunk is => by rw [read] at is; cases is)
    next read => exact iff_of_false nofun (stops fun b chunk is => by rw [read] at is; cases is)
    next b chunk read =>
      have seen := answered_succ reads k read
      have longer : (answered reads (k + 1)).length =
          (answered reads k).length + (chunk.length + 1) := by
        rw [seen, List.length_append, List.length_cons]
      have here (i : Nat) (low : k ≤ i) (high : i ≤ k) :
          ∃ b chunk, reads i = .done (b :: chunk) := by
        rw [show i = k by omega]
        exact ⟨b, chunk, read⟩
      rw [← seen]
      dsimp only
      split
      next whole => exact iff_of_true rfl ⟨k, Nat.le_refl k, here, whole⟩
      next cut =>
        rw [ih (by omega) cut]
        constructor
        · intro ⟨n, le, all, whole⟩
          refine ⟨n, by omega, fun i low high => ?_, whole⟩
          rcases Nat.lt_or_ge k i with later | first
          · exact all i later high
          · exact here i low first
        · intro ⟨n, le, all, whole⟩
          rcases Nat.lt_or_ge k n with later | first
          · exact ⟨n, later, fun i low high => all i (by omega) high, whole⟩
          · rw [show n = k by omega] at whole
            exact absurd whole cut

/-- A round trip is alive exactly if the request goes out and reads bring bytes until the header is
over, or more than any header is there. -/
theorem roundtrip_alive (write : Timed Unit) (reads : Nat → Timed (List UInt8)) :
    roundtrip write reads = .alive ↔ write = .done () ∧
      ∃ n, (∀ i ≤ n, ∃ b chunk, reads i = .done (b :: chunk)) ∧ Whole (answered reads (n + 1)) := by
  cases write with
  | elapsed => simp [roundtrip]
  | failed => simp [roundtrip]
  | done u =>
    have nothing : ¬ Whole (answered reads 0) := by
      intro whole
      rcases whole with inside | long
      · exact absurd inside.length_le (show ¬ 4 ≤ 0 by decide)
      · exact absurd long (show ¬ answerCap < 0 by decide)
    have enough : answerCap < (answered reads 0).length + (answerCap + 1) := by simp [answered]
    have answer := readAnswer_alive reads enough nothing
    simpa [roundtrip, answered] using answer

/-! A session over the ticks of one path -/

/-- A tick as one path has it: a passive one closes the session. -/
structure PathTick where
  active : Bool
  now : Nat
  attempt : Attempt

def pathStep (stale : Nat) (slot : Option Held) (t : PathTick) : Option Held × Option StreamCheck :=
  if t.active then checkSlot stale slot t.now t.attempt else (none, none)

def slotAfter (stale : Nat) (ticks : List PathTick) : Option Held :=
  ticks.foldl (fun slot t => (pathStep stale slot t).1) none

/-- What the path reads on a tick behind others. -/
def readingOn (stale : Nat) (past : List PathTick) (t : PathTick) : Option StreamCheck :=
  (pathStep stale (slotAfter stale past) t).2

/-- A tick that opens a session, and so measures nothing. -/
def Opens (stale : Nat) (past : List PathTick) (t : PathTick) : Prop :=
  t.active = true ∧ readingOn stale past t = none ∧ t.attempt.establishes = true

/-- The ticks since one opened a session: each exercised it, and none came late. -/
structure Carried (stale : Nat) (opened : PathTick) (since : List PathTick) : Prop where
  alive : ∀ t ∈ since, t.active = true ∧ t.attempt.round = .alive
  close : (opened :: since).IsChain fun a b => b.now - a.now ≤ stale

/-- The session a path holds is the one an earlier tick opened and every later one carried. -/
inductive Session (stale : Nat) : List PathTick → Held → Prop where
  | mk {before since : List PathTick} {opened : PathTick} (opens : Opens stale before opened)
      (carried : Carried stale opened since) :
      Session stale (before ++ opened :: since)
        ⟨opened.now, ((opened :: since).getLast (List.cons_ne_nil _ _)).now⟩

section

variable {stale : Nat} {past : List PathTick} {t : PathTick} {h : Held}

theorem slotAfter_snoc (past : List PathTick) (t : PathTick) :
    slotAfter stale (past ++ [t]) = (pathStep stale (slotAfter stale past) t).1 := by
  rw [slotAfter, List.foldl_append]
  rfl

/-- A slot with nothing to measure is left with what the tick could establish. -/
theorem checkSlot_cases (slot : Option Held) (now : Nat) (a : Attempt) :
    checkSlot stale slot now a = (establish a now, none) ∨
      ∃ held, slot = some held ∧ now - held.lastChecked ≤ stale ∧
        ((a.round = .alive ∧ checkSlot stale slot now a =
            (some { held with lastChecked := now }, some ⟨true, held.ageS now⟩)) ∨
          (a.round = .stalled ∧ checkSlot stale slot now a =
            (none, some ⟨false, held.ageS now⟩))) := by
  cases kept : slot.filter fun h => now - h.lastChecked ≤ stale with
  | none =>
    left
    rw [checkSlot, kept]
  | some held =>
    obtain ⟨there, fresh⟩ := Option.filter_eq_some_iff.mp kept
    have within := of_decide_eq_true fresh
    cases round : a.round with
    | alive =>
      exact .inr ⟨held, there, within, .inl ⟨rfl, by rw [checkSlot, kept]; simp only [round]⟩⟩
    | stalled =>
      exact .inr ⟨held, there, within, .inr ⟨rfl, by rw [checkSlot, kept]; simp only [round]⟩⟩
    | tornDown =>
      left
      rw [checkSlot, kept]
      simp only [round]

theorem slot_opened (opens : Opens stale past t) :
    slotAfter stale (past ++ [t]) = some ⟨t.now, t.now⟩ := by
  obtain ⟨active, nothing, establishes⟩ := opens
  rw [readingOn, pathStep, if_pos active] at nothing
  rw [slotAfter_snoc, pathStep, if_pos active]
  rcases checkSlot_cases (slotAfter stale past) t.now t.attempt with
    is | ⟨_, _, _, ⟨_, is⟩ | ⟨_, is⟩⟩
  · rw [is, establish, if_pos establishes]
  · rw [is] at nothing
    cases nothing
  · rw [is] at nothing
    cases nothing

theorem slot_carried (held : slotAfter stale past = some h) (active : t.active = true)
    (alive : t.attempt.round = .alive) (within : t.now - h.lastChecked ≤ stale) :
    slotAfter stale (past ++ [t]) = some { h with lastChecked := t.now } := by
  have kept : (slotAfter stale past).filter (fun h => t.now - h.lastChecked ≤ stale) = some h := by
    rw [held]
    exact Option.filter_eq_some_iff.mpr ⟨rfl, decide_eq_true within⟩
  rw [slotAfter_snoc, pathStep, if_pos active, checkSlot, kept]
  simp only [alive]

theorem Session.carry (session : Session stale past h) (active : t.active = true)
    (alive : t.attempt.round = .alive) (within : t.now - h.lastChecked ≤ stale) :
    Session stale (past ++ [t]) { h with lastChecked := t.now } := by
  obtain ⟨opens, carried⟩ := session
  next before since opened =>
    have longer : Carried stale opened (since ++ [t]) := by
      constructor
      · intro later listed
        rcases List.mem_append.mp listed with old | new
        · exact carried.alive later old
        · rw [List.mem_singleton.mp new]
          exact ⟨active, alive⟩
      · rw [← List.cons_append, List.isChain_append]
        refine ⟨carried.close, List.isChain_singleton t, fun a last b new => ?_⟩
        have same : (opened :: since).getLast (List.cons_ne_nil _ _) = a :=
          Option.some.inj ((List.getLast?_eq_some_getLast (List.cons_ne_nil _ _)).symm.trans last)
        have this : b = t := (Option.some.inj new).symm
        rw [this, ← same]
        exact within
    have whole := Session.mk opens longer
    simpa using whole

theorem slot_session : slotAfter stale past = some h ↔ Session stale past h := by
  constructor
  · intro held
    induction past using List.reverseRecOn generalizing h with
    | nil => cases held
    | append_singleton past t ih =>
      cases active : t.active with
      | false =>
        rw [slotAfter_snoc, pathStep, if_neg (by simp [active])] at held
        cases held
      | true =>
        have reads : readingOn stale past t =
            (checkSlot stale (slotAfter stale past) t.now t.attempt).2 := by
          rw [readingOn, pathStep, if_pos active]
        rw [slotAfter_snoc, pathStep, if_pos active] at held
        rcases checkSlot_cases (slotAfter stale past) t.now t.attempt with
          is | ⟨old, there, within, ⟨alive, is⟩ | ⟨_, is⟩⟩
        · rw [is] at held reads
          rw [establish] at held
          split at held
          next establishes =>
            have alone : Carried stale t [] :=
              ⟨fun later listed => absurd listed List.not_mem_nil, List.isChain_singleton t⟩
            have opened : Session stale (past ++ [t]) ⟨t.now, t.now⟩ :=
              .mk ⟨active, reads, establishes⟩ alone
            cases held
            exact opened
          next => cases held
        · rw [is] at held
          cases held
          exact (ih there).carry active alive within
        · rw [is] at held
          cases held
  · intro session
    obtain ⟨opens, carried⟩ := session
    next before since opened =>
      induction since using List.reverseRecOn with
      | nil => exact slot_opened opens
      | append_singleton since t ih =>
        have sinceBefore : Carried stale opened since :=
          ⟨fun later listed => carried.alive later (List.mem_append_left _ listed),
            (List.isChain_append.mp (List.cons_append ▸ carried.close)).1⟩
        obtain ⟨active, alive⟩ := carried.alive t (List.mem_append_right _ List.mem_cons_self)
        have last := (List.isChain_append.mp (List.cons_append ▸ carried.close)).2.2
          _ (List.getLast?_eq_some_getLast (List.cons_ne_nil opened since)) t rfl
        have next := slot_carried (ih sinceBefore) active alive last
        rw [List.append_assoc, List.cons_append] at next
        simpa using next

/-- A path measures exactly the session its earlier ticks opened and carried: on an active tick not
too far behind the last, alive by a whole round trip, dead by one that hung. -/
theorem reading_session (c : StreamCheck) :
    readingOn stale past t = some c ↔ ∃ h, Session stale past h ∧ t.active = true ∧
      t.now - h.lastChecked ≤ stale ∧ c.ageS = h.ageS t.now ∧
      ((c.alive = true ∧ t.attempt.round = .alive) ∨
        (c.alive = false ∧ t.attempt.round = .stalled)) := by
  rw [readingOn, pathStep]
  constructor
  · intro reads
    split at reads
    next active =>
      rcases checkSlot_cases (slotAfter stale past) t.now t.attempt with
        is | ⟨old, there, within, ⟨round, is⟩ | ⟨round, is⟩⟩
      · rw [is] at reads
        cases reads
      · rw [is] at reads
        cases reads
        exact ⟨old, slot_session.mp there, active, within, rfl, .inl ⟨rfl, round⟩⟩
      · rw [is] at reads
        cases reads
        exact ⟨old, slot_session.mp there, active, within, rfl, .inr ⟨rfl, round⟩⟩
    next => cases reads
  · intro ⟨h, session, active, within, age, how⟩
    have kept : (slotAfter stale past).filter
        (fun h => t.now - h.lastChecked ≤ stale) = some h := by
      rw [slot_session.mpr session]
      exact Option.filter_eq_some_iff.mpr ⟨rfl, decide_eq_true within⟩
    obtain ⟨alive, ageS⟩ := c
    dsimp only at age how
    rw [if_pos active, checkSlot, kept, age]
    rcases how with ⟨rfl, round⟩ | ⟨rfl, round⟩
    · simp only [round]
    · simp only [round]

end

/-! The collector's run -/

theorem tickFacts_placeTest {shared : ProxySample} {t : UrlTest} {rows : List ProxySample}
    (same : ∀ r ∈ rows, r.tickFacts = shared.tickFacts) :
    ∀ r ∈ placeTest shared rows t, r.tickFacts = shared.tickFacts := by
  intro r mem
  unfold placeTest at mem
  split at mem
  next home found =>
    obtain ⟨i, at_i⟩ := List.mem_iff_getElem?.mp mem
    rw [List.getElem?_modify] at at_i
    obtain ⟨old, from_old, rfl⟩ := Option.map_eq_some_iff.mp at_i
    have kept := same old (List.mem_of_getElem? from_old)
    split
    · exact kept
    · exact kept
  next =>
    rcases List.mem_append.mp mem with old | added
    · exact same r old
    · rw [List.mem_singleton.mp added]
      rfl

theorem tickFacts_foldl {shared : ProxySample} {tests : List UrlTest} {rows : List ProxySample}
    (same : ∀ r ∈ rows, r.tickFacts = shared.tickFacts) :
    ∀ r ∈ tests.foldl (placeTest shared) rows, r.tickFacts = shared.tickFacts := by
  induction tests generalizing rows with
  | nil => exact same
  | cons t tests ih => exact ih (tickFacts_placeTest same)

/-- Every row of a tick tells the tick's facts, whatever its endpoints and readings. -/
theorem tickFacts_buildProxySamples {tsUs : Int} {tunCode : Option Nat} {selector : Option String}
    {stall : StallReading} {probed : List (String × PingOutcome)} {tests : List UrlTest} :
    ∀ r ∈ buildProxySamples tsUs tunCode selector stall probed tests,
      r.tickFacts = (sharedRow tsUs tunCode selector stall).tickFacts := by
  intro r mem
  unfold buildProxySamples at mem
  rw [(List.mergeSort_perm _ _).mem_iff] at mem
  refine tickFacts_foldl (fun row first => ?_) r mem
  split at first
  · rw [List.mem_singleton.mp first]
  · obtain ⟨p, -, rfl⟩ := List.mem_map.mp first
    rfl

namespace HeldTick

def onDirect (t : HeldTick) : PathTick := ⟨t.tier.emits .heldStream, t.now, t.direct⟩

def onTun (t : HeldTick) : PathTick := ⟨t.tier.emits .heldStream, t.now, t.tun⟩

end HeldTick

/-- The collector behind its ticks: the streams it holds and its memory of the nodes. -/
def heldBehind (stale : Nat) (memory : String → Option UrltestMemory) (ticks : List HeldTick) :
    HeldReferenceStreams × (String → Option UrltestMemory) :=
  ticks.foldl (fun s t =>
    let ran := s.1.collect stale s.2 t
    (ran.1, ran.2.1)) (HeldReferenceStreams.new, memory)

/-- The rows of a tick behind others. -/
def heldRows (stale : Nat) (memory : String → Option UrltestMemory) (past : List HeldTick)
    (t : HeldTick) : List ProxySample :=
  let s := heldBehind stale memory past
  (s.1.collect stale s.2 t).2.2

/-- The streams a tick leaves are those its two paths leave, each by itself. -/
theorem collect_streams (s : HeldReferenceStreams) (stale : Nat)
    (memory : String → Option UrltestMemory) (t : HeldTick) :
    (s.collect stale memory t).1 =
      ⟨(pathStep stale s.direct t.onDirect).1, (pathStep stale s.tun t.onTun).1⟩ := by
  unfold HeldReferenceStreams.collect
  cases active : t.tier.emits .heldStream with
  | true => simp [pathStep, HeldTick.onDirect, HeldTick.onTun, active, HeldReferenceStreams.check]
  | false => simp [pathStep, HeldTick.onDirect, HeldTick.onTun, active, HeldReferenceStreams.close]

theorem heldBehind_streams (stale : Nat) (memory : String → Option UrltestMemory)
    (ticks : List HeldTick) :
    (heldBehind stale memory ticks).1 = ⟨slotAfter stale (ticks.map HeldTick.onDirect),
      slotAfter stale (ticks.map HeldTick.onTun)⟩ := by
  induction ticks using List.reverseRecOn with
  | nil => rfl
  | append_singleton ticks t ih =>
    have step : (heldBehind stale memory (ticks ++ [t])).1 =
        let s := heldBehind stale memory ticks
        (s.1.collect stale s.2 t).1 := by
      rw [heldBehind, List.foldl_append]
      rfl
    rw [step, collect_streams, ih, List.map_append, List.map_append, List.map_singleton,
      List.map_singleton, slotAfter_snoc, slotAfter_snoc]

theorem facts_heldRows (stale : Nat) (memory : String → Option UrltestMemory)
    (past : List HeldTick) (t : HeldTick) : ∀ r ∈ heldRows stale memory past t,
    let direct := readingOn stale (past.map HeldTick.onDirect) t.onDirect
    let tun := readingOn stale (past.map HeldTick.onTun) t.onTun
    r.estDirectAlive = direct.map (·.alive) ∧ r.estDirectAgeS = direct.map (·.ageS) ∧
      r.estTunAlive = tun.map (·.alive) ∧ r.estTunAgeS = tun.map (·.ageS) := by
  intro r mem
  have held := heldBehind_streams stale memory past
  unfold heldRows HeldReferenceStreams.collect at mem
  unfold ProxyAnswers.collect at mem
  have facts := tickFacts_buildProxySamples r mem
  obtain ⟨-, -, -, direct, directAge, tun, tunAge⟩ := ProxyTickFacts.mk.inj facts
  rw [direct, directAge, tun, tunAge]
  cases active : t.tier.emits .heldStream with
  | true =>
    simp [sharedRow, readingOn, pathStep, HeldTick.onDirect, HeldTick.onTun, active,
      HeldReferenceStreams.check, held]
  | false => simp [sharedRow, readingOn, pathStep, HeldTick.onDirect, HeldTick.onTun, active]

/-- What a path's columns say of a session: its age, and whether the round trip came back. -/
def Measures (stale : Nat) (past : List PathTick) (t : PathTick) (alive : Option Bool)
    (ageS : Option Nat) : Prop :=
  alive.isSome = ageS.isSome ∧
    ∀ b n, alive = some b ∧ ageS = some n ↔ ∃ h, Session stale past h ∧ t.active = true ∧
      t.now - h.lastChecked ≤ stale ∧ n = h.ageS t.now ∧
      ((b = true ∧ t.attempt.round = .alive) ∨ (b = false ∧ t.attempt.round = .stalled))

theorem measures_readingOn (stale : Nat) (past : List PathTick) (t : PathTick) :
    Measures stale past t ((readingOn stale past t).map (·.alive))
      ((readingOn stale past t).map (·.ageS)) := by
  refine ⟨by rw [Option.isSome_map, Option.isSome_map], fun b n => ?_⟩
  rw [← reading_session ⟨b, n⟩]
  cases readingOn stale past t with
  | none => simp
  | some c =>
    obtain ⟨alive, ageS⟩ := c
    simp

/-- On every tick of a run every row tells of each path the session that path carried so far, and of
no other; a passive tick leaves no session, and the next active one measures nothing. -/
theorem held_streams_measure (interval : Nat) (memory : String → Option UrltestMemory)
    (past : List HeldTick) (t : HeldTick) :
    (∀ r ∈ heldRows (staleAfter interval) memory past t,
      Measures (staleAfter interval) (past.map HeldTick.onDirect) t.onDirect
          r.estDirectAlive r.estDirectAgeS ∧
        Measures (staleAfter interval) (past.map HeldTick.onTun) t.onTun
          r.estTunAlive r.estTunAgeS) ∧
      (t.tier.emits .heldStream = false →
        (heldBehind (staleAfter interval) memory (past ++ [t])).1 = HeldReferenceStreams.new ∧
        ∀ t', ∀ r ∈ heldRows (staleAfter interval) memory (past ++ [t]) t',
          r.estDirectAlive = none ∧ r.estTunAlive = none) := by
  constructor
  · intro r mem
    obtain ⟨direct, directAge, tun, tunAge⟩ := facts_heldRows _ memory past t r mem
    rw [direct, directAge, tun, tunAge]
    exact ⟨measures_readingOn _ _ _, measures_readingOn _ _ _⟩
  · intro passive
    have nothing (path : HeldTick → PathTick) (same : (path t).active = false) :
        slotAfter (staleAfter interval) ((past ++ [t]).map path) = none := by
      rw [List.map_append, List.map_singleton, slotAfter_snoc, pathStep,
        if_neg (by rw [same]; exact Bool.false_ne_true)]
    have unread (path : HeldTick → PathTick) (same : (path t).active = false) (t' : PathTick) :
        readingOn (staleAfter interval) ((past ++ [t]).map path) t' = none := by
      rw [readingOn, nothing path same, pathStep]
      split
      · rfl
      · rfl
    refine ⟨?_, fun t' r mem => ?_⟩
    · rw [heldBehind_streams, nothing _ passive, nothing _ passive]
      rfl
    · obtain ⟨direct, -, tun, -⟩ := facts_heldRows _ memory _ t' r mem
      rw [direct, tun, unread _ passive, unread _ passive]
      exact ⟨rfl, rfl⟩

end NetObserver
