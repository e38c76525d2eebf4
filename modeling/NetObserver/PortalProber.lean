import NetObserver.ControlThreads
import NetObserver.PortalSchedule

/-! The captive-portal prober's loop against pauses, resumes and tier switches, one shared access
at a time. -/

namespace NetObserver

/-- What one captive-detect answer says. -/
inductive ProbeReading where
  | clean
  | intercepted (loginUrl : Option String) (shape : String)
  | unreadable (reason : String)

structure AttemptFields where
  verdict : PortalVerdict
  loginUrl : Option String
  reason : Option String

/-- A transport failure and an unreadable answer are the absence of a measurement. -/
def attemptFields (readResponse : List UInt8 → ProbeReading) :
    Except String (List UInt8) → AttemptFields
  | .error reason => ⟨.skip, none, some reason⟩
  | .ok bytes =>
    match readResponse bytes with
    | .clean => ⟨.ok, none, none⟩
    | .intercepted loginUrl shape => ⟨.portal, loginUrl, some shape⟩
    | .unreadable reason => ⟨.skip, none, some reason⟩

def withheldFields : AttemptFields := ⟨.skip, none, some "withheld: passive probing tier"⟩

/-- A fresh address on a physical interface arms a series. -/
def seriesTrigger (e : RouteEvent) : Option String :=
  e.iface.bind fun iface =>
    if ¬ "en".toList.isPrefixOf iface.toList then none
    else if e.kind = "addr" ∧ e.detail = "RTM_NEWADDR" then some iface
    else none

def buildPortalSample (tsUs : Int) (iface : String) (fields : AttemptFields) : PortalSample :=
  ⟨tsUs, iface, fields.verdict, fields.loginUrl, fields.reason⟩

/-- `PAUSE_RETRY`, in seconds. -/
def pauseRetry : Nat := 15

/-- An attempt once stamped, with the changes of the flag that had taken effect when it first
looked, and those of the flag and of the tier at its stamp. -/
structure StampedAttempt where
  iface : String
  firstFlips : Nat
  tsUs : Int
  flips : Nat
  switches : Nat

structure TieredAttempt extends StampedAttempt where
  tier : ProbingTier
  firstSwitches : Nat

structure AnsweredAttempt extends TieredAttempt where
  fields : AttemptFields

structure RecheckedAttempt extends AnsweredAttempt where
  lastFlips : Nat

structure CheckedAttempt extends RecheckedAttempt where
  lastSwitches : Nat

inductive AttemptPhase where
  | waiting
  | due (iface : String)
  | observed (iface : String) (firstFlips : Nat)
  | stamped (a : StampedAttempt)
  | tiered (a : TieredAttempt)
  | answered (a : AnsweredAttempt)
  | rechecked (a : RecheckedAttempt)
  | checked (a : CheckedAttempt)
  | stopped

structure SentReading where
  sample : PortalSample
  attempt : CheckedAttempt

/-- The atomics, how often the flag and the tier have changed, the loop's own state and what it has
sent. -/
structure Prober where
  shared : Shared
  flips : Nat
  switches : Nat
  sched : Scheduler
  deadline : Option Nat
  phase : AttemptPhase
  sent : List SentReading

inductive ProberStep where
  | control (task : ControlTask) (tsUs : Int) (mayRestore : Bool)
  | routeEvent (e : RouteEvent) (now : Nat)
  | routeClosed
  | fire (now : Nat)
  | readFlag (now : Nat)
  | stamp (tsUs : Int)
  | readTier
  | fetch (answer : Except String (List UInt8))
  | withhold
  | recheckFlag (now : Nat)
  | recheckTier (now : Nat)
  | send (now : Nat)
  | receiverDropped

namespace Prober

def start (tier : ProbingTier) : Prober where
  shared := .start tier
  flips := 0
  switches := 0
  sched := .new
  deadline := none
  phase := .waiting
  sent := []

/-- The attempt is put off; the scheduler is not told. -/
def defer (d : Prober) (now : Nat) : Prober :=
  { d with phase := .waiting, deadline := some (now + pauseRetry) }

def controlled (d : Prober) (task : ControlTask) (tsUs : Int) (mayRestore : Bool) : Prober :=
  let after := (ControlPlane.lockedSection d.shared task tsUs mayRestore).1
  { d with
    shared := after
    flips := if after.observing = d.shared.observing then d.flips else d.flips + 1
    switches := if after.probing = d.shared.probing then d.switches else d.switches + 1 }

/-- A step of the control path or of the loop; a route event is only taken between attempts. -/
def step (readResponse : List UInt8 → ProbeReading) (d : Prober) : ProberStep → Option Prober
  | .control task tsUs mayRestore => some (d.controlled task tsUs mayRestore)
  | .routeEvent e now =>
    match d.phase with
    | .waiting =>
      match seriesTrigger e with
      | some iface =>
        some { d with
          sched := (d.sched.onTrigger iface).1
          deadline := (d.sched.onTrigger iface).2.map (now + ·) }
      | none => some d
    | _ => none
  | .routeClosed =>
    match d.phase with
    | .waiting => some { d with phase := .stopped }
    | _ => none
  | .fire now =>
    match d.phase, d.deadline with
    | .waiting, some deadline =>
      if now < deadline then none
      else
        match d.sched.target with
        | some iface => some { d with phase := .due iface }
        | none => some { d with deadline := none }
    | _, _ => none
  | .readFlag now =>
    match d.phase with
    | .due iface =>
      if d.shared.observing then some { d with phase := .observed iface d.flips }
      else some (d.defer now)
    | _ => none
  | .stamp tsUs =>
    match d.phase with
    | .observed iface firstFlips =>
      some { d with phase := .stamped ⟨iface, firstFlips, tsUs, d.flips, d.switches⟩ }
    | _ => none
  | .readTier =>
    match d.phase with
    | .stamped a => some { d with phase := .tiered ⟨a, d.shared.probing, d.switches⟩ }
    | _ => none
  | .fetch answer =>
    match d.phase with
    | .tiered a =>
      if a.tier.emits .captiveProbe then
        some { d with phase := .answered ⟨a, attemptFields readResponse answer⟩ }
      else none
    | _ => none
  | .withhold =>
    match d.phase with
    | .tiered a =>
      if a.tier.emits .captiveProbe then none
      else some { d with phase := .answered ⟨a, withheldFields⟩ }
    | _ => none
  | .recheckFlag now =>
    match d.phase with
    | .answered a =>
      if d.shared.observing then some { d with phase := .rechecked ⟨a, d.flips⟩ }
      else some (d.defer now)
    | _ => none
  | .recheckTier now =>
    match d.phase with
    | .rechecked a =>
      if d.shared.probing = a.tier then some { d with phase := .checked ⟨a, d.switches⟩ }
      else some (d.defer now)
    | _ => none
  | .send now =>
    match d.phase with
    | .checked a =>
      some { d with
        sent := d.sent ++ [⟨buildPortalSample a.tsUs a.iface a.fields, a⟩]
        sched := (d.sched.onAttemptDone a.fields.verdict).1
        deadline := (d.sched.onAttemptDone a.fields.verdict).2.map (now + ·)
        phase := .waiting }
    | _ => none
  | .receiverDropped =>
    match d.phase with
    | .checked _ => some { d with phase := .stopped }
    | _ => none

end Prober

/-- No pause and no resume took effect between the stamp and the second look at the flag, no tier
switch between the stamp and the second look at the tier. -/
def CheckedAttempt.Straddles (a : CheckedAttempt) : Prop :=
  a.lastFlips ≠ a.flips ∨ a.lastSwitches ≠ a.switches

/-- The edges since each first look are even in number, and one of them is newer than the stamp:
what a second look by value cannot tell from no edge at all. -/
def RecheckedAttempt.Cancels (a : RecheckedAttempt) (switches : Nat) : Prop :=
  (a.lastFlips - a.firstFlips) % 2 = 0 ∧ (switches - a.firstSwitches) % 2 = 0 ∧
    (a.flips < a.lastFlips ∨ a.switches < switches)

def ProbingTier.other : ProbingTier → ProbingTier
  | .passive => .active
  | .active => .passive

/-- The tier after so many switches from the one the daemon starts in. -/
def tierAfter (tier : ProbingTier) (switches : Nat) : ProbingTier :=
  if switches % 2 = 0 then tier else tier.other

theorem ProbingTier.eq_other {t u : ProbingTier} (apart : u ≠ t) : u = t.other := by
  cases t <;> cases u <;> first | rfl | exact absurd rfl apart

theorem ProbingTier.other_ne (t : ProbingTier) : t.other ≠ t := by
  cases t <;> decide

theorem tierAfter_eq_iff (tier : ProbingTier) (n m : Nat) :
    tierAfter tier n = tierAfter tier m ↔ n % 2 = m % 2 := by
  have apart := tier.other_ne
  unfold tierAfter
  by_cases even : n % 2 = 0 <;> by_cases even' : m % 2 = 0 <;>
    simp only [even, even', if_true, if_false] <;> grind

theorem tierAfter_succ (tier : ProbingTier) (n : Nat) {after : ProbingTier}
    (apart : after ≠ tierAfter tier n) : after = tierAfter tier (n + 1) := by
  have back : tier.other.other = tier := by cases tier <;> rfl
  rw [ProbingTier.eq_other apart]
  unfold tierAfter
  by_cases even : n % 2 = 0
  · rw [if_pos even, if_neg (by omega)]
  · rw [if_neg even, if_pos (by omega), back]

structure StampedAttempt.Sound (a : StampedAttempt) (flips switches : Nat) : Prop where
  first : a.firstFlips % 2 = 0
  looked : a.firstFlips ≤ a.flips
  flips : a.flips ≤ flips
  switches : a.switches ≤ switches

structure TieredAttempt.Sound (a : TieredAttempt) (tier : ProbingTier) (flips switches : Nat) :
    Prop where
  stamped : a.toStampedAttempt.Sound flips switches
  tier : a.tier = tierAfter tier a.firstSwitches
  read : a.switches ≤ a.firstSwitches
  switches : a.firstSwitches ≤ switches

structure RecheckedAttempt.Sound (a : RecheckedAttempt) (tier : ProbingTier)
    (flips switches : Nat) : Prop where
  tiered : a.toTieredAttempt.Sound tier flips switches
  looked : a.flips ≤ a.lastFlips
  last : a.lastFlips % 2 = 0

/-- What an attempt in flight may rely on, by what it has read so far. -/
def AttemptPhase.Sound (tier : ProbingTier) (flips switches : Nat) : AttemptPhase → Prop
  | .waiting | .due _ | .checked _ | .stopped => True
  | .observed _ firstFlips => firstFlips % 2 = 0 ∧ firstFlips ≤ flips
  | .stamped a => a.Sound flips switches
  | .tiered a => a.Sound tier flips switches
  | .answered a => a.toTieredAttempt.Sound tier flips switches
  | .rechecked a => a.Sound tier flips switches

/-- The flag and the tier are what their numbers of changes make of the values they started
with. -/
structure Prober.Sound (tier : ProbingTier) (d : Prober) : Prop where
  flag : d.shared.observing = true ↔ d.flips % 2 = 0
  probing : d.shared.probing = tierAfter tier d.switches
  phase : d.phase.Sound tier d.flips d.switches

theorem StampedAttempt.Sound.mono {a : StampedAttempt} {flips switches flips' switches' : Nat}
    (sound : a.Sound flips switches) (le : flips ≤ flips') (le' : switches ≤ switches') :
    a.Sound flips' switches' :=
  ⟨sound.first, sound.looked, Nat.le_trans sound.flips le, Nat.le_trans sound.switches le'⟩

theorem TieredAttempt.Sound.mono {a : TieredAttempt} {tier : ProbingTier}
    {flips switches flips' switches' : Nat} (sound : a.Sound tier flips switches)
    (le : flips ≤ flips') (le' : switches ≤ switches') : a.Sound tier flips' switches' :=
  ⟨sound.stamped.mono le le', sound.tier, sound.read, Nat.le_trans sound.switches le'⟩

theorem AttemptPhase.Sound.mono {phase : AttemptPhase} {tier : ProbingTier}
    {flips switches flips' switches' : Nat} (sound : phase.Sound tier flips switches)
    (le : flips ≤ flips') (le' : switches ≤ switches') : phase.Sound tier flips' switches' := by
  cases phase with
  | waiting | due | checked | stopped => trivial
  | observed iface firstFlips => exact ⟨sound.1, Nat.le_trans sound.2 le⟩
  | stamped a => exact StampedAttempt.Sound.mono sound le le'
  | tiered a => exact TieredAttempt.Sound.mono sound le le'
  | answered a => exact TieredAttempt.Sound.mono sound le le'
  | rechecked a => exact ⟨sound.tiered.mono le le', sound.looked, sound.last⟩

namespace Prober

variable {readResponse : List UInt8 → ProbeReading}

theorem sound_start (tier : ProbingTier) : (start tier).Sound tier :=
  ⟨by simp [start, Shared.start], rfl, trivial⟩

/-- An edge moves the flag or the tier to the other value, and counts. -/
theorem sound_controlled {tier : ProbingTier} {d : Prober} (sound : d.Sound tier)
    (task : ControlTask) (tsUs : Int) (mayRestore : Bool) :
    (d.controlled task tsUs mayRestore).Sound tier := by
  obtain ⟨flag, probing, phase⟩ := sound
  unfold controlled
  dsimp only
  generalize (ControlPlane.lockedSection d.shared task tsUs mayRestore).1 = after
  refine ⟨?_, ?_, phase.mono ?_ ?_⟩
  · by_cases same : after.observing = d.shared.observing
    · simp only [same, if_true]
      exact flag
    · simp only [if_neg same]
      cases now : after.observing <;> cases was : d.shared.observing <;>
        simp only [now, was, not_true] at same flag ⊢ <;> simp at flag ⊢ <;> omega
  · by_cases same : after.probing = d.shared.probing
    · simp only [same, if_true]
      exact probing
    · simp only [if_neg same]
      rw [probing] at same
      exact tierAfter_succ tier d.switches same
  · dsimp only
    split <;> omega
  · dsimp only
    split <;> omega

theorem sound_defer {tier : ProbingTier} {d : Prober} (sound : d.Sound tier) (now : Nat) :
    (d.defer now).Sound tier :=
  ⟨sound.flag, sound.probing, trivial⟩

theorem sound_step {tier : ProbingTier} {d t : Prober} {label : ProberStep}
    (stepped : d.step readResponse label = some t) (sound : d.Sound tier) : t.Sound tier := by
  obtain ⟨flag, probing, phase⟩ := id sound
  cases label with
  | control task tsUs mayRestore =>
    cases stepped
    exact sound_controlled sound task tsUs mayRestore
  | routeEvent e now =>
    simp only [step] at stepped
    split at stepped
    next quiet =>
      split at stepped
      next => cases stepped; exact ⟨flag, probing, phase⟩
      next => cases stepped; exact sound
    next => cases stepped
  | routeClosed =>
    simp only [step] at stepped
    split at stepped
    next => cases stepped; exact ⟨flag, probing, trivial⟩
    next => cases stepped
  | fire now =>
    simp only [step] at stepped
    split at stepped
    next =>
      split at stepped
      next => cases stepped
      next =>
        split at stepped
        next => cases stepped; exact ⟨flag, probing, trivial⟩
        next => cases stepped; exact ⟨flag, probing, phase⟩
    next => cases stepped
  | readFlag now =>
    simp only [step] at stepped
    split at stepped
    next =>
      split at stepped
      next observing =>
        cases stepped
        exact ⟨flag, probing, flag.mp observing, Nat.le_refl _⟩
      next => cases stepped; exact sound_defer sound now
    next => cases stepped
  | stamp tsUs =>
    simp only [step] at stepped
    split at stepped
    next iface firstFlips found =>
      rw [found] at phase
      cases stepped
      exact ⟨flag, probing, phase.1, phase.2, Nat.le_refl _, Nat.le_refl _⟩
    next => cases stepped
  | readTier =>
    simp only [step] at stepped
    split at stepped
    next a found =>
      rw [found] at phase
      cases stepped
      have stamped : a.Sound d.flips d.switches := phase
      exact ⟨flag, probing, stamped, probing, stamped.switches, Nat.le_refl _⟩
    next => cases stepped
  | fetch answer =>
    simp only [step] at stepped
    split at stepped
    next a found =>
      rw [found] at phase
      split at stepped
      next => cases stepped; exact ⟨flag, probing, phase⟩
      next => cases stepped
    next => cases stepped
  | withhold =>
    simp only [step] at stepped
    split at stepped
    next a found =>
      rw [found] at phase
      split at stepped
      next => cases stepped
      next => cases stepped; exact ⟨flag, probing, phase⟩
    next => cases stepped
  | recheckFlag now =>
    simp only [step] at stepped
    split at stepped
    next a found =>
      rw [found] at phase
      split at stepped
      next observing =>
        cases stepped
        have tiered : a.toTieredAttempt.Sound tier d.flips d.switches := phase
        exact ⟨flag, probing, tiered, tiered.stamped.flips, flag.mp observing⟩
      next => cases stepped; exact sound_defer sound now
    next => cases stepped
  | recheckTier now =>
    simp only [step] at stepped
    split at stepped
    next =>
      split at stepped
      next => cases stepped; exact ⟨flag, probing, trivial⟩
      next => cases stepped; exact sound_defer sound now
    next => cases stepped
  | send now =>
    simp only [step] at stepped
    split at stepped
    next => cases stepped; exact ⟨flag, probing, trivial⟩
    next => cases stepped
  | receiverDropped =>
    simp only [step] at stepped
    split at stepped
    next => cases stepped; exact ⟨flag, probing, trivial⟩
    next => cases stepped

theorem sound_run {tier : ProbingTier} {labels : List ProberStep} {d : Prober}
    (run : Runs.runSteps (step readResponse) (start tier) labels = some d) : d.Sound tier :=
  Runs.runSteps_invariant (fun _ _ _ => sound_step) run (sound_start tier)

end Prober

/-- A tier found at the second look is the first look's exactly after an even number of
switches. -/
theorem RecheckedAttempt.Sound.passes_iff {a : RecheckedAttempt} {tier : ProbingTier}
    {flips switches : Nat} (sound : a.Sound tier flips switches) :
    tierAfter tier switches = a.tier ↔ (switches - a.firstSwitches) % 2 = 0 := by
  have le := sound.tiered.switches
  rw [sound.tiered.tier, tierAfter_eq_iff]
  omega

theorem RecheckedAttempt.straddles_of_cancels {a : RecheckedAttempt} {switches : Nat}
    (cancels : a.Cancels switches) : (CheckedAttempt.mk a switches).Straddles := by
  obtain ⟨-, -, moved⟩ := cancels
  rcases moved with flipped | switched
  · left
    show a.lastFlips ≠ a.flips
    omega
  · right
    show switches ≠ a.switches
    omega

theorem RecheckedAttempt.Sound.cancels_of_passed {a : RecheckedAttempt} {tier : ProbingTier}
    {flips switches : Nat} (sound : a.Sound tier flips switches)
    (passed : tierAfter tier switches = a.tier)
    (straddles : (CheckedAttempt.mk a switches).Straddles) : a.Cancels switches := by
  have first := sound.tiered.stamped.first
  have last := sound.last
  have order := sound.tiered.stamped.looked
  have seen := sound.looked
  have read := sound.tiered.read
  have later := sound.tiered.switches
  refine ⟨by omega, sound.passes_iff.mp passed, ?_⟩
  rcases straddles with flipped | switched
  · left
    have apart : a.lastFlips ≠ a.flips := flipped
    omega
  · right
    have apart : switches ≠ a.switches := switched
    omega

/-- What is about to be sent, and what has been, straddles no edge. -/
structure Prober.Clear (d : Prober) : Prop where
  checked : ∀ a, d.phase = .checked a → ¬ a.Straddles
  sent : ∀ s ∈ d.sent, ¬ s.attempt.Straddles

namespace Prober

variable {readResponse : List UInt8 → ProbeReading}

/-- Only a second look at the tier has an attempt checked, and only a send spends it. -/
theorem step_quiet {d t : Prober} {label : ProberStep}
    (stepped : d.step readResponse label = some t) (unchecked : ∀ now, label ≠ .recheckTier now)
    (unsent : ∀ now, label ≠ .send now) :
    t.sent = d.sent ∧ ∀ a, t.phase = .checked a → d.phase = .checked a := by
  unfold step at stepped
  grind [controlled, defer]

theorem sched_of_step {d t : Prober} {label : ProberStep}
    (stepped : d.step readResponse label = some t) (untriggered : ∀ e now, label ≠ .routeEvent e now)
    (unsent : ∀ now, label ≠ .send now) : t.sched = d.sched := by
  unfold step at stepped
  grind [controlled, defer]

theorem recheckTier_cases {d t : Prober} {now : Nat}
    (stepped : d.step readResponse (.recheckTier now) = some t) :
    ∃ a, d.phase = .rechecked a ∧
      (d.shared.probing = a.tier ∧ t = { d with phase := .checked ⟨a, d.switches⟩ } ∨
        t = d.defer now) := by
  simp only [step] at stepped
  split at stepped
  next a found =>
    refine ⟨a, found, ?_⟩
    split at stepped
    next same => exact .inl ⟨same, (Option.some.inj stepped).symm⟩
    next => exact .inr (Option.some.inj stepped).symm
  next => cases stepped

theorem send_cases {d t : Prober} {now : Nat} (stepped : d.step readResponse (.send now) = some t) :
    ∃ a, d.phase = .checked a ∧ t.phase = .waiting ∧
      t.sent = d.sent ++ [⟨buildPortalSample a.tsUs a.iface a.fields, a⟩] := by
  simp only [step] at stepped
  split at stepped
  next a found =>
    cases stepped
    exact ⟨a, found, rfl, rfl⟩
  next => cases stepped

/-- A step keeps the attempts clear unless it passes one whose edges cancel. -/
theorem clear_step {tier : ProbingTier} {d t : Prober} {label : ProberStep}
    (stepped : d.step readResponse label = some t)
    (uncancelled : ∀ now a, label = .recheckTier now → d.phase = .rechecked a →
      ¬ a.Cancels d.switches)
    (sound : d.Sound tier) (clear : d.Clear) : t.Clear := by
  by_cases check : ∃ now, label = .recheckTier now
  · obtain ⟨now, rfl⟩ := check
    obtain ⟨a, found, ⟨same, rfl⟩ | rfl⟩ := recheckTier_cases stepped
    · refine ⟨?_, clear.sent⟩
      intro b checked straddles
      obtain rfl := AttemptPhase.checked.inj checked
      have phase := sound.phase
      rw [found] at phase
      rw [sound.probing] at same
      exact uncancelled now a rfl found (RecheckedAttempt.Sound.cancels_of_passed phase same straddles)
    · exact ⟨fun b checked => (by cases checked), clear.sent⟩
  · by_cases send : ∃ now, label = .send now
    · obtain ⟨now, rfl⟩ := send
      obtain ⟨a, found, quiet, grown⟩ := send_cases stepped
      refine ⟨fun b checked => ?_, fun s listed => ?_⟩
      · rw [quiet] at checked
        cases checked
      · rw [grown] at listed
        rcases List.mem_append.mp listed with old | new
        · exact clear.sent s old
        · rw [List.mem_singleton.mp new]
          exact clear.checked a found
    · obtain ⟨sent, still⟩ := step_quiet stepped (fun now is => check ⟨now, is⟩)
        (fun now is => send ⟨now, is⟩)
      exact ⟨fun a checked => clear.checked a (still a checked), sent ▸ clear.sent⟩

/-- An attempt whose edges cancel passes its second check, and its sample is sent. -/
theorem cancelled_is_sent {tier : ProbingTier} {d : Prober} {a : RecheckedAttempt}
    (sound : d.Sound tier) (found : d.phase = .rechecked a) (cancels : a.Cancels d.switches)
    (now : Nat) :
    ∃ v s, Runs.runSteps (step readResponse) d [.recheckTier now, .send now] = some v ∧
      v.sent = d.sent ++ [s] ∧ s.attempt.Straddles := by
  have phase : a.Sound tier d.flips d.switches := by
    have held := sound.phase
    rw [found] at held
    exact held
  have passed : d.shared.probing = a.tier := by
    rw [sound.probing]
    exact phase.passes_iff.mpr cancels.2.1
  have check : d.step readResponse (.recheckTier now) =
      some { d with phase := .checked ⟨a, d.switches⟩ } := by
    simp only [step, found, if_pos passed]
  refine ⟨_, ⟨buildPortalSample a.tsUs a.iface a.fields, ⟨a, d.switches⟩⟩,
    Runs.runSteps_cons_eq_some.mpr ⟨_, check, rfl⟩, rfl, ?_⟩
  exact RecheckedAttempt.straddles_of_cancels cancels

def IsIntake : ProberStep → Prop
  | .routeEvent .. | .send _ => True
  | _ => False

theorem sched_of_run {d t : Prober} {labels : List ProberStep}
    (run : Runs.runSteps (step readResponse) d labels = some t)
    (deferred : ∀ label ∈ labels, ¬ IsIntake label) : t.sched = d.sched := by
  induction labels generalizing d with
  | nil => cases run; rfl
  | cons label labels ih =>
    obtain ⟨m, stepped, rest⟩ := Runs.runSteps_cons_eq_some.mp run
    have here := sched_of_step stepped
      (fun e now is => deferred label (by simp) (is ▸ trivial))
      (fun now is => deferred label (by simp) (is ▸ trivial))
    rw [ih rest fun l listed => deferred l (List.mem_cons_of_mem _ listed), here]

end Prober

/-- The edges of an attempt cancel: it comes to its second look at the tier having found the flag
set again, with an even number of changes of each since the first looks, one at least of them
newer than its stamp. -/
def CancelledAttempt (readResponse : List UInt8 → ProbeReading) (tier : ProbingTier)
    (labels : List ProberStep) : Prop :=
  ∃ past now rest u a, labels = past ++ .recheckTier now :: rest ∧
    Runs.runSteps (Prober.step readResponse) (.start tier) past = some u ∧
    u.phase = .rechecked a ∧ a.Cancels u.switches

/-- Over every interleaving: where no attempt's edges cancel, no sample sent straddles an edge;
where some attempt's do, its sample can be sent and does. Between its triggers and its sends
nothing moves the scheduler, so a deferred attempt leaves it as it was. -/
theorem portal_readings_straddle_iff (readResponse : List UInt8 → ProbeReading)
    (tier : ProbingTier) {labels : List ProberStep} {d : Prober}
    (run : Runs.runSteps (Prober.step readResponse) (.start tier) labels = some d) :
    (¬ CancelledAttempt readResponse tier labels → ∀ s ∈ d.sent, ¬ s.attempt.Straddles) ∧
      (∀ a, d.phase = .rechecked a → a.Cancels d.switches → ∀ now, ∃ v s,
        Runs.runSteps (Prober.step readResponse) d [.recheckTier now, .send now] = some v ∧
          v.sent = d.sent ++ [s] ∧ s.attempt.Straddles) ∧
      ∀ more t, Runs.runSteps (Prober.step readResponse) d more = some t →
        (∀ label ∈ more, ¬ Prober.IsIntake label) → t.sched = d.sched := by
  refine ⟨?_, ?_, fun more t onward deferred => Prober.sched_of_run onward deferred⟩
  · intro uncancelled
    have both : d.Sound tier ∧ d.Clear := by
      refine Runs.runSteps_guarded (P := fun d => d.Sound tier ∧ d.Clear)
        (G := fun u label => ∀ now a, label = .recheckTier now → u.phase = .rechecked a →
          ¬ a.Cancels u.switches) ?_ run ?_ ⟨Prober.sound_start tier, ?_⟩
      · rintro s label t stepped guard ⟨sound, clear⟩
        exact ⟨Prober.sound_step stepped sound, Prober.clear_step stepped guard sound clear⟩
      · rintro past label rest u v split reached stepped now a rfl found cancels
        exact uncancelled ⟨past, now, rest, u, a, split, reached, found, cancels⟩
      · refine ⟨fun a checked => ?_, fun s listed => ?_⟩
        · cases checked
        · cases listed
    exact both.2.sent
  · intro a found cancels now
    exact Prober.cancelled_is_sent (Prober.sound_run run) found cancels now

/-- The genuine page, read while an operator pauses and resumes within the fetch. -/
def fetchAcrossToggle : List ProberStep :=
  [.routeEvent ⟨1, "addr", some "en0", "RTM_NEWADDR"⟩ 0, .fire 3, .readFlag 3, .stamp 3000000,
    .readTier, .control (.control (.setObserving false) 501) 3500000 true,
    .control (.control (.setObserving true) 501) 4000000 true,
    .fetch (.ok "HTTP/1.0 200 OK\r\n\r\nSuccess".toUTF8.toList), .recheckFlag 5, .recheckTier 5,
    .send 5]

theorem reading_sent_across_toggle :
    ∃ d s, Runs.runSteps (Prober.step fun _ => .clean) (.start .active) fetchAcrossToggle = some d ∧
      d.sent = [s] ∧ s.sample = ⟨3000000, "en0", .ok, none, none⟩ ∧ s.attempt.flips = 0 ∧
      s.attempt.lastFlips = 2 ∧ s.attempt.Straddles := by
  refine ⟨_, _, rfl, rfl, rfl, rfl, rfl, .inl ?_⟩
  show 2 ≠ 0
  decide

def armedSeries : List ProberStep :=
  [.routeEvent ⟨1, "addr", some "en0", "RTM_NEWADDR"⟩ 0, .fire 3]

def attemptAcrossPause : List ProberStep :=
  [.readFlag 3, .stamp 3000000, .readTier,
    .control (.control (.setObserving false) 501) 3500000 true, .fetch (.error "timed out"),
    .recheckFlag 5]

theorem portal_readings_straddle_iff_attemptAcrossPause :
    ∃ t, Runs.runSteps (Prober.step fun _ => .clean) (.start .active)
        (armedSeries ++ attemptAcrossPause) = some t ∧
      t.deadline = some 20 ∧ t.sent = [] ∧ t.sched = ⟨.series "en0" 0⟩ := by
  refine ⟨_, rfl, rfl, rfl, ?_⟩
  refine (@portal_readings_straddle_iff (fun _ => .clean) .active armedSeries _ rfl).2.2
    attemptAcrossPause _ rfl ?_
  simp [attemptAcrossPause, Prober.IsIntake]

end NetObserver
