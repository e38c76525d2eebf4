import NetObserver.BarHistory
import NetObserver.Runs

/-! The bar against its daemon: clicks on its switches as round trips of a read, a command and a
read back, any number in flight, while the timer reads and other controllers switch. -/

namespace NetObserver.Bar

/-- The two switches a click reads before it commands. -/
inductive Switch where
  | observing
  | probing
deriving DecidableEq

/-- How often the daemon was paused or resumed, and how often its tier was moved. -/
structure Switches where
  observing : Nat
  probing : Nat

def Switches.of (n : Switches) : Switch → Nat
  | .observing => n.observing
  | .probing => n.probing

inductive TripPc where
  | clicked
  | premised (before : StatusSnapshot) (readAt : Switches)
  | sent (control : Except String ControlResult)
  | answered (control : Except String ControlResult) (fresh : Except GlanceError StatusSnapshot)
  | applied

def TripPc.isPast : TripPc → Bool
  | .clicked | .premised _ _ => false
  | .sent _ | .answered _ _ | .applied => true

/-- A round trip; a scan, a freeze or any other press without a premise has no switch. -/
structure Trip where
  switch : Option Switch
  pc : TripPc

/-- A command of a trip that the daemon ran: the switches as its premise found them and as it found
them itself, and whether it moved anything. -/
structure Command where
  trip : Nat
  switch : Switch
  readAt : Switches
  ranAt : Switches
  moved : Bool

structure World where
  daemon : Shared
  switches : Switches
  glance : Glance
  trips : List Trip
  commands : List Command

/-- What became of a command on its way: refused or never there, run with the answer lost, or run
and answered, with how its boundary write went. -/
inductive Fate where
  | unrun (control : Except String ControlResult)
  | lost (e : String)
  | ran (boundary : Except String Unit)

inductive TripMove where
  | premise (fresh : Except GlanceError StatusSnapshot)
  | send (fate : Fate) (peerUid : Nat) (tsUs : Int)
  | readBack (fresh : Except GlanceError StatusSnapshot)
  | apply (nowUs : Int)

/-- What another controller of the daemon, or an experiment, does to it. -/
inductive Other where
  | setObserving (b : Bool) (peerUid : Nat)
  | setProbing (tier : ProbingTier) (peerUid : Nat)
  | opening (peerUid : Nat)
  | closing (mayRestore : Bool) (tierBefore : ProbingTier) (peerUid : Nat)

inductive WorldStep where
  | click (switch : Option Switch)
  | trip (i : Nat) (m : TripMove)
  | tick (fresh : Except GlanceError StatusSnapshot) (readUs drawnUs : Int)
  | refresh (fresh : Except GlanceError StatusSnapshot) (nowUs : Int)
  | other (what : Other) (tsUs : Int)

def GlanceError.message : GlanceError → String
  | .unreachable m | .protocol m => m

def oppositeTier : ProbingTier → ProbingTier
  | .passive => .active
  | .active => .passive

/-- A read of the daemon that comes through shows its switches as they are. -/
def readFresh (s : Shared) (fresh : Except GlanceError StatusSnapshot) :
    Except GlanceError StatusSnapshot :=
  match fresh with
  | .ok body => .ok { body with observing := s.snapObserving, probing := s.snapProbing }
  | .error e => .error e

def Other.run (s : Shared) (tsUs : Int) : Other → Shared
  | .setObserving b peerUid => (NetObserver.setObserving s b peerUid tsUs).1
  | .setProbing tier peerUid => (NetObserver.setProbing s tier peerUid tsUs).1
  | .opening peerUid => (openingSwitch s peerUid tsUs).1
  | .closing mayRestore tierBefore peerUid => (closingSwitch s mayRestore tierBefore peerUid tsUs).1

/-- The command of a click asks for the other state than the one its premise shows. -/
def Switch.command (before : StatusSnapshot) (s : Shared) (boundary : Except String Unit)
    (peerUid : Nat) (tsUs : Int) : Switch → Shared × ControlResult
  | .observing =>
    let target := !before.observing
    let moved := setObserving s target peerUid tsUs
    (moved.1, setObservingResult target moved.2 fun _ => boundary)
  | .probing =>
    let target := oppositeTier before.probing
    let moved := setProbing s target peerUid tsUs
    (moved.1, setProbingResult target moved.2 fun _ => boundary)

namespace World

def start (tier : ProbingTier) (first : StatusSnapshot) (firstErr : Option GlanceError) : World :=
  ⟨.start tier, ⟨0, 0⟩, .new first firstErr, [], []⟩

def switchesAfter (w : World) (s : Shared) : Switches :=
  ⟨w.switches.observing + if s.observing = w.daemon.observing then 0 else 1,
   w.switches.probing + if s.probing = w.daemon.probing then 0 else 1⟩

def move (w : World) (s : Shared) : World :=
  { w with daemon := s, switches := w.switchesAfter s }

def setPc (w : World) (i : Nat) (t : Trip) (pc : TripPc) : World :=
  { w with trips := w.trips.set i { t with pc := pc } }

/-- The daemon runs the command of a trip. -/
def run (w : World) (i : Nat) (switch : Switch) (readAt : Switches) (s : Shared) : World :=
  { w.move s with
    commands := w.commands ++ [⟨i, switch, readAt, w.switches, decide (s ≠ w.daemon)⟩] }

def send (w : World) (i : Nat) (t : Trip) (switch : Switch) (before : StatusSnapshot)
    (readAt : Switches) (peerUid : Nat) (tsUs : Int) : Fate → World
  | .unrun control => w.setPc i t (.sent control)
  | .lost e =>
    let ran := switch.command before w.daemon (.ok ()) peerUid tsUs
    (w.run i switch readAt ran.1).setPc i t (.sent (.error e))
  | .ran boundary =>
    let ran := switch.command before w.daemon boundary peerUid tsUs
    (w.run i switch readAt ran.1).setPc i t (.sent (.ok ran.2))

def stepTrip (w : World) (i : Nat) (t : Trip) (m : TripMove) : Option World :=
  match t.pc, t.switch, m with
  | .clicked, some _, .premise fresh =>
    match readFresh w.daemon fresh with
    | .ok before => some (w.setPc i t (.premised before w.switches))
    -- no premise, no command: the error goes to both halves of the outcome
    | .error e => some (w.setPc i t (.answered (.error e.message) (.error e)))
  | .clicked, none, .send (.unrun control) _ _ => some (w.setPc i t (.sent control))
  | .premised before readAt, some switch, .send fate peerUid tsUs =>
    some (w.send i t switch before readAt peerUid tsUs fate)
  | .sent control, _, .readBack fresh =>
    some (w.setPc i t (.answered control (readFresh w.daemon fresh)))
  | .answered control fresh, _, .apply nowUs =>
    some ({ w with glance := w.glance.step (.outcome control fresh nowUs) }.setPc i t .applied)
  | _, _, _ => none

def step (w : World) : WorldStep → Option World
  | .click switch => some { w with trips := w.trips ++ [⟨switch, .clicked⟩] }
  | .trip i m => w.trips[i]?.bind fun t => w.stepTrip i t m
  | .tick fresh readUs drawnUs =>
    some { w with glance := w.glance.step (.tick (readFresh w.daemon fresh) readUs drawnUs) }
  | .refresh fresh nowUs =>
    some { w with glance := w.glance.step (.refresh (readFresh w.daemon fresh) nowUs) }
  | .other what tsUs => some (w.move (what.run w.daemon tsUs))

end World

/-- What a trip's premise shows is so as long as the switches were moved evenly since. -/
structure Sees (s : Shared) (now readAt : Switches) (before : StatusSnapshot) : Prop where
  observingLe : readAt.observing ≤ now.observing
  observing : before.observing = s.observing ↔ (now.observing - readAt.observing) % 2 = 0
  probingLe : readAt.probing ≤ now.probing
  probing : before.probing = s.probing ↔ (now.probing - readAt.probing) % 2 = 0

def Mirrors (s : Shared) : Prop :=
  s.snapObserving = s.observing ∧ s.snapProbing = s.probing

/-- Of two values, one more move swaps which of them a third agrees with. -/
theorem swaps {α : Type*} [DecidableEq α] (two : ∀ a b c : α, b ≠ c → (a = b ↔ a ≠ c))
    {a b : α} {n k : Nat} (le : k ≤ n) (same : a = b ↔ (n - k) % 2 = 0) (b' : α) :
    a = b' ↔ ((n + if b' = b then 0 else 1) - k) % 2 = 0 := by
  by_cases stays : b' = b
  · rw [if_pos stays, stays, Nat.add_zero]
    exact same
  · rw [if_neg stays, two a b' b stays, ne_eq, same]
    omega

theorem Sees.move {w : World} {readAt : Switches} {before : StatusSnapshot}
    (sees : Sees w.daemon w.switches readAt before) (s : Shared) :
    Sees s (w.switchesAfter s) readAt before where
  observingLe := Nat.le_add_right_of_le sees.observingLe
  observing := swaps (by decide) sees.observingLe sees.observing s.observing
  probingLe := Nat.le_add_right_of_le sees.probingLe
  probing := swaps (fun a b c => by cases a <;> cases b <;> cases c <;> simp) sees.probingLe
    sees.probing s.probing

theorem setObserving_mirrors {s : Shared} (mirrors : Mirrors s) (b : Bool) (peerUid : Nat)
    (tsUs : Int) : Mirrors (setObserving s b peerUid tsUs).1 := by
  unfold setObserving
  split
  next => exact mirrors
  next => cases b <;> exact ⟨rfl, mirrors.2⟩

theorem switchProbing_mirrors {s : Shared} (mirrors : Mirrors s)
    (target : ProbingTier → Except String ProbingTier) (peerUid : Option Nat)
    (reason : ProbingReason) (policy : EdgePolicy) (tsUs : Int) :
    Mirrors (switchProbing s target peerUid reason policy tsUs).1 := by
  rcases switchProbing_cases s target peerUid reason policy tsUs with
    ⟨_, _, is⟩ | ⟨_, is⟩ | ⟨_, _, _, is⟩
  · exact is ▸ mirrors
  · exact is ▸ mirrors
  · exact is ▸ ⟨mirrors.1, rfl⟩

theorem Other.mirrors {s : Shared} (mirrors : Mirrors s) (tsUs : Int) (what : Other) :
    Mirrors (what.run s tsUs) := by
  cases what with
  | setObserving b peerUid => exact setObserving_mirrors mirrors b peerUid tsUs
  | setProbing tier peerUid => exact switchProbing_mirrors mirrors _ _ _ _ _
  | opening peerUid => exact switchProbing_mirrors mirrors _ _ _ _ _
  | closing mayRestore tierBefore peerUid => exact switchProbing_mirrors mirrors _ _ _ _ _

theorem Switch.command_mirrors {s : Shared} (mirrors : Mirrors s) (switch : Switch)
    (before : StatusSnapshot) (boundary : Except String Unit) (peerUid : Nat) (tsUs : Int) :
    Mirrors (switch.command before s boundary peerUid tsUs).1 := by
  cases switch with
  | observing => exact setObserving_mirrors mirrors _ peerUid tsUs
  | probing => exact switchProbing_mirrors mirrors _ _ _ _ _

/-- What the premise shows of the switch is what the daemon has. -/
def Switch.Agrees (before : StatusSnapshot) (s : Shared) : Switch → Prop
  | .observing => before.observing = s.observing
  | .probing => before.probing = s.probing

theorem Sees.agrees {s : Shared} {now readAt : Switches} {before : StatusSnapshot}
    (sees : Sees s now readAt before) (switch : Switch) :
    readAt.of switch ≤ now.of switch ∧
      (switch.Agrees before s ↔ (now.of switch - readAt.of switch) % 2 = 0) := by
  cases switch with
  | observing => exact ⟨sees.observingLe, sees.observing⟩
  | probing => exact ⟨sees.probingLe, sees.probing⟩

theorem setObserving_cases (s : Shared) (b : Bool) (peerUid : Nat) (tsUs : Int) :
    (s.observing = b ∧ (setObserving s b peerUid tsUs).1 = s) ∨
      (s.observing ≠ b ∧ (setObserving s b peerUid tsUs).1.observing = b) := by
  unfold setObserving
  by_cases same : s.observing = b
  · exact .inl ⟨same, by rw [if_pos same]⟩
  · exact .inr ⟨same, by rw [if_neg same]⟩

theorem setProbing_cases (s : Shared) (tier : ProbingTier) (peerUid : Nat) (tsUs : Int) :
    (s.probing = tier ∧ (setProbing s tier peerUid tsUs).1 = s) ∨
      (s.probing ≠ tier ∧ (setProbing s tier peerUid tsUs).1.probing = tier) := by
  unfold setProbing switchProbing
  by_cases same : s.probing = tier
  · exact .inl ⟨same, by simp [same]⟩
  · exact .inr ⟨same, by simp [same]⟩

/-- A click's command moves its switch where it finds the daemon as its premise showed it, and
otherwise nothing. -/
theorem Switch.command_cases (switch : Switch) (before : StatusSnapshot) (w : World)
    (boundary : Except String Unit) (peerUid : Nat) (tsUs : Int) :
    let s' := (switch.command before w.daemon boundary peerUid tsUs).1
    (¬ switch.Agrees before w.daemon ∧ s' = w.daemon) ∨
      (switch.Agrees before w.daemon ∧ s' ≠ w.daemon ∧
        (w.switchesAfter s').of switch = w.switches.of switch + 1) := by
  intro s'
  cases switch with
  | observing =>
    rcases setObserving_cases w.daemon (!before.observing) peerUid tsUs with
      ⟨there, same⟩ | ⟨apart, is⟩
    · refine .inl ⟨fun agrees => ?_, same⟩
      rw [show before.observing = w.daemon.observing from agrees] at there
      exact absurd there (by cases w.daemon.observing <;> decide)
    · have moved : s'.observing ≠ w.daemon.observing := fun same => apart (same ▸ is)
      refine .inr ⟨?_, fun same => moved (same ▸ rfl), ?_⟩
      · show before.observing = w.daemon.observing
        cases now : w.daemon.observing <;> cases was : before.observing <;>
          simp [now, was] at apart ⊢
      · show _ + (if _ then 0 else 1) = _
        rw [if_neg moved]
        rfl
  | probing =>
    rcases setProbing_cases w.daemon (oppositeTier before.probing) peerUid tsUs with
      ⟨there, same⟩ | ⟨apart, is⟩
    · refine .inl ⟨fun agrees => ?_, same⟩
      rw [show before.probing = w.daemon.probing from agrees] at there
      exact absurd there (by cases w.daemon.probing <;> decide)
    · have moved : s'.probing ≠ w.daemon.probing := fun same => apart (same ▸ is)
      refine .inr ⟨?_, fun same => moved (same ▸ rfl), ?_⟩
      · show before.probing = w.daemon.probing
        cases now : w.daemon.probing <;> cases was : before.probing <;>
          simp [now, was, oppositeTier] at apart ⊢
      · show _ + (if _ then 0 else 1) = _
        rw [if_neg moved]
        rfl

theorem World.switches_le (w : World) (s : Shared) (switch : Switch) :
    w.switches.of switch ≤ (w.switchesAfter s).of switch := by
  cases switch with
  | observing => exact Nat.le_add_right _ _
  | probing => exact Nat.le_add_right _ _

/-- A command run after another on the same premise finds the switch moved at least twice more, if
both move it. -/
def Apart (c later : Command) : Prop :=
  c.switch = later.switch → c.moved = true → later.moved = true →
    c.readAt.of c.switch = later.readAt.of c.switch →
      c.ranAt.of c.switch + 2 ≤ later.ranAt.of c.switch

/-- A command has moved its switch if the switch was moved evenly since its premise was read. -/
structure Command.Swapped (c : Command) : Prop where
  ordered : c.readAt.of c.switch ≤ c.ranAt.of c.switch
  moved : c.moved = true ↔ (c.ranAt.of c.switch - c.readAt.of c.switch) % 2 = 0

structure Tracked (w : World) : Prop where
  mirrors : Mirrors w.daemon
  premises : ∀ (i : Nat) (t : Trip) before readAt, w.trips[i]? = some t →
    t.pc = .premised before readAt → Sees w.daemon w.switches readAt before
  swapped : ∀ c ∈ w.commands, c.Swapped
  counted : ∀ c ∈ w.commands,
    c.ranAt.of c.switch + (if c.moved then 1 else 0) ≤ w.switches.of c.switch
  apart : w.commands.Pairwise Apart
  past : ∀ c ∈ w.commands, ∃ t, w.trips[c.trip]? = some t ∧ t.switch = some c.switch ∧
    t.pc.isPast = true
  once : (w.commands.map (·.trip)).Nodup

namespace Tracked

variable {w : World}

theorem start (tier : ProbingTier) (first : StatusSnapshot) (firstErr : Option GlanceError) :
    Tracked (.start tier first firstErr) where
  mirrors := ⟨rfl, rfl⟩
  premises := fun i t before readAt trip => by cases trip
  swapped := fun c mem => by cases mem
  counted := fun c mem => by cases mem
  apart := .nil
  past := fun c mem => by cases mem
  once := .nil

theorem glance (tracked : Tracked w) (g : Glance) : Tracked { w with glance := g } :=
  ⟨tracked.mirrors, tracked.premises, tracked.swapped, tracked.counted, tracked.apart,
    tracked.past, tracked.once⟩

theorem move (tracked : Tracked w) {s : Shared} (mirrors : Mirrors s) : Tracked (w.move s) where
  mirrors := mirrors
  premises := fun i t before readAt trip at_ => (tracked.premises i t before readAt trip at_).move s
  swapped := tracked.swapped
  counted := fun c mem => Nat.le_trans (tracked.counted c mem) (w.switches_le s c.switch)
  apart := tracked.apart
  past := tracked.past
  once := tracked.once

theorem click (tracked : Tracked w) (switch : Option Switch) :
    Tracked { w with trips := w.trips ++ [⟨switch, .clicked⟩] } where
  mirrors := tracked.mirrors
  premises := fun i t before readAt trip at_ => by
    rcases Runs.getElem?_snoc_cases trip with ⟨_, rfl⟩ | old
    · cases at_
    · exact tracked.premises i t before readAt old at_
  swapped := tracked.swapped
  counted := tracked.counted
  apart := tracked.apart
  past := fun c mem => by
    obtain ⟨t, trip, sent⟩ := tracked.past c mem
    have there := (List.getElem?_eq_some_iff.mp trip).1
    exact ⟨t, (List.getElem?_append_left there).trans trip, sent⟩
  once := tracked.once

/-- A trip that goes on, to a premise only by one the daemon shows now. -/
theorem setPc (tracked : Tracked w) {i : Nat} {t : Trip} {pc : TripPc}
    (trip : w.trips[i]? = some t)
    (sees : ∀ before readAt, pc = .premised before readAt →
      Sees w.daemon w.switches readAt before)
    (past : pc.isPast = true ∨ ∀ c ∈ w.commands, c.trip ≠ i) : Tracked (w.setPc i t pc) where
  mirrors := tracked.mirrors
  premises := fun j t' before readAt found at_ => by
    rcases Runs.getElem?_set_cases found with ⟨_, rfl⟩ | ⟨_, old⟩
    · exact sees before readAt at_
    · exact tracked.premises j t' before readAt old at_
  swapped := tracked.swapped
  counted := tracked.counted
  apart := tracked.apart
  past := fun c mem => by
    obtain ⟨t', trip', switch, sent⟩ := tracked.past c mem
    have there := (List.getElem?_eq_some_iff.mp trip').1
    by_cases same : c.trip = i
    · have is : t' = t := Option.some.inj (trip'.symm.trans (same ▸ trip))
      have done := past.resolve_right fun apart => apart c mem same
      refine ⟨{ t with pc := pc }, ?_, is ▸ switch, done⟩
      show (w.trips.set i _)[c.trip]? = _
      rw [same, List.getElem?_set_self (same ▸ there)]
    · refine ⟨t', ?_, switch, sent⟩
      show (w.trips.set i _)[c.trip]? = _
      rw [List.getElem?_set_ne (Ne.symm same), trip']
  once := tracked.once

/-- A trip that has not got its premise, or will have none, has commanded nothing. -/
theorem uncommanded (tracked : Tracked w) {i : Nat} {t : Trip} (trip : w.trips[i]? = some t)
    (early : t.pc.isPast = false) : ∀ c ∈ w.commands, c.trip ≠ i := fun c mem same => by
  obtain ⟨t', trip', _, past⟩ := tracked.past c mem
  have is : t' = t := Option.some.inj (trip'.symm.trans (same ▸ trip))
  rw [is, early] at past
  cases past

/-- The daemon runs the command of a trip that has its premise. -/
theorem run (tracked : Tracked w) {i : Nat} {t : Trip} {switch : Switch} {before : StatusSnapshot}
    {readAt : Switches} (trip : w.trips[i]? = some t) (premised : t.pc = .premised before readAt)
    (of : t.switch = some switch) (boundary : Except String Unit) (peerUid : Nat) (tsUs : Int)
    (control : Except String ControlResult) :
    Tracked ((w.run i switch readAt
      (switch.command before w.daemon boundary peerUid tsUs).1).setPc i t (.sent control)) := by
  have mirrors := switch.command_mirrors tracked.mirrors before boundary peerUid tsUs
  have cases_ := switch.command_cases before w boundary peerUid tsUs
  generalize (switch.command before w.daemon boundary peerUid tsUs).1 = s' at mirrors cases_ ⊢
  obtain ⟨ordered, agrees⟩ := (tracked.premises i t before readAt trip premised).agrees switch
  have there := (List.getElem?_eq_some_iff.mp trip).1
  have fresh := tracked.uncommanded trip (by rw [premised]; rfl)
  have more : w.switches.of switch + (if s' ≠ w.daemon then 1 else 0) ≤
      (w.switchesAfter s').of switch := by
    rcases cases_ with ⟨_, same⟩ | ⟨_, moved, once⟩
    · rw [if_neg (not_not_intro same)]
      exact w.switches_le s' switch
    · rw [if_pos moved, once]
  have went := tracked.move mirrors
  have swapped : Command.Swapped ⟨i, switch, readAt, w.switches, decide (s' ≠ w.daemon)⟩ := by
    refine ⟨ordered, ?_⟩
    rw [← agrees, decide_eq_true_eq]
    rcases cases_ with ⟨differs, same⟩ | ⟨agree, moved, _⟩
    · exact iff_of_false (not_not_intro same) differs
    · exact iff_of_true moved agree
  refine ⟨mirrors, ?_, ?_, ?_, ?_, ?_, ?_⟩
  · intro j t' before' readAt' found at_
    rcases Runs.getElem?_set_cases found with ⟨_, rfl⟩ | ⟨_, old⟩
    · cases at_
    · exact went.premises j t' before' readAt' old at_
  · intro c mem
    rcases List.mem_append.mp mem with old | new
    · exact tracked.swapped c old
    · exact List.mem_singleton.mp new ▸ swapped
  · intro c mem
    rcases List.mem_append.mp mem with old | new
    · exact went.counted c old
    · cases List.mem_singleton.mp new
      show _ + (if decide (s' ≠ w.daemon) = true then 1 else 0) ≤ (w.switchesAfter s').of switch
      simpa only [decide_eq_true_eq] using more
  · refine List.pairwise_append.mpr ⟨tracked.apart, List.pairwise_singleton _ _, ?_⟩
    intro c mem later new same moved moves premise
    rw [List.mem_singleton.mp new] at same moves premise ⊢
    have counted := tracked.counted c mem
    have even := (tracked.swapped c mem).moved.mp moved
    have ordered' := (tracked.swapped c mem).ordered
    have even' := swapped.moved.mp moves
    rw [if_pos moved] at counted
    simp only [same] at counted even ordered' even' ordered premise ⊢
    omega
  · intro c mem
    rcases List.mem_append.mp mem with old | new
    · obtain ⟨t', trip', switch', past⟩ := tracked.past c old
      refine ⟨t', ?_, switch', past⟩
      show (w.trips.set i _)[c.trip]? = _
      rw [List.getElem?_set_ne (Ne.symm (fresh c old)), trip']
    · cases List.mem_singleton.mp new
      refine ⟨{ t with pc := .sent control }, ?_, of, rfl⟩
      show (w.trips.set i _)[i]? = _
      rw [List.getElem?_set_self there]
  · show ((w.commands ++ [_]).map _).Nodup
    rw [List.map_append]
    refine List.nodup_append.mpr ⟨tracked.once, List.pairwise_singleton _ _, ?_⟩
    intro j old k new same
    obtain ⟨c, mem, rfl⟩ := List.mem_map.mp old
    cases List.mem_singleton.mp new
    exact fresh c mem same

theorem premise (tracked : Tracked w) {fresh : Except GlanceError StatusSnapshot}
    {before : StatusSnapshot} (read : readFresh w.daemon fresh = .ok before) :
    Sees w.daemon w.switches w.switches before := by
  unfold readFresh at read
  split at read
  next body =>
    cases read
    have even (n : Nat) : (n - n) % 2 = 0 := by rw [Nat.sub_self]
    exact ⟨Nat.le_refl _, iff_of_true tracked.mirrors.1 (even _), Nat.le_refl _,
      iff_of_true tracked.mirrors.2 (even _)⟩
  next => cases read

theorem stepTrip (tracked : Tracked w) {w' : World} {i : Nat} {t : Trip} {m : TripMove}
    (trip : w.trips[i]? = some t) (stepped : w.stepTrip i t m = some w') : Tracked w' := by
  unfold World.stepTrip at stepped
  split at stepped
  next clicked _ =>
    have early : t.pc.isPast = false := by rw [clicked]; rfl
    split at stepped
    next before read =>
      cases stepped
      refine tracked.setPc trip (fun b readAt is => ?_) (.inr (tracked.uncommanded trip early))
      cases is
      exact tracked.premise read
    next e _ =>
      cases stepped
      exact tracked.setPc trip (fun _ _ is => by cases is) (.inl rfl)
  next =>
    cases stepped
    exact tracked.setPc trip (fun _ _ is => by cases is) (.inl rfl)
  next before readAt switch fate peerUid tsUs premised of =>
    cases stepped
    cases fate with
    | unrun control => exact tracked.setPc trip (fun _ _ is => by cases is) (.inl rfl)
    | lost e => exact tracked.run trip premised of _ peerUid tsUs _
    | ran boundary => exact tracked.run trip premised of _ peerUid tsUs _
  next =>
    cases stepped
    exact tracked.setPc trip (fun _ _ is => by cases is) (.inl rfl)
  next =>
    cases stepped
    exact (tracked.glance _).setPc trip (fun _ _ is => by cases is) (.inl rfl)
  next => cases stepped

theorem step (w : World) (label : WorldStep) (w' : World) (stepped : w.step label = some w')
    (tracked : Tracked w) : Tracked w' := by
  cases label with
  | click switch => cases stepped; exact tracked.click switch
  | trip i m =>
    obtain ⟨t, trip, moved⟩ := Option.bind_eq_some_iff.mp stepped
    exact tracked.stepTrip trip moved
  | tick fresh readUs drawnUs => cases stepped; exact tracked.glance _
  | refresh fresh nowUs => cases stepped; exact tracked.glance _
  | other what tsUs => cases stepped; exact tracked.move (what.mirrors tracked.mirrors tsUs)

theorem reached (tier : ProbingTier) (first : StatusSnapshot) (firstErr : Option GlanceError)
    {labels : List WorldStep} {w : World}
    (ran : Runs.runSteps World.step (.start tier first firstErr) labels = some w) : Tracked w :=
  Runs.runSteps_invariant step ran (.start tier first firstErr)

end Tracked

end NetObserver.Bar
