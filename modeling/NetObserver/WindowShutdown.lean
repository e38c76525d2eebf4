import Mathlib.Data.List.Count
import NetObserver.Runs

/-! A window beside the thread that reads its subscription: the window's end ends the thread,
however it interleaves with a connect. -/

namespace NetObserver

open Runs

/-- A subscription the thread holds; without a clone of its socket there is no handle to it. -/
structure HeldSub where
  socket : Nat
  cloned : Bool

/-- Where the thread is. `locked` and `found` are inside `arm`, which keeps the cell locked. -/
inductive ReaderPhase where
  | checking
  | connecting
  | connected (sub : HeldSub)
  | waiting (sub : HeldSub)
  | locked (sub : HeldSub)
  | found (sub : HeldSub) (stopped : Bool)
  | armed (sub : HeldSub)
  | reading (sub : HeldSub)
  | ended (sub : HeldSub)
  | offline
  | rechecking
  | sleeping
  | returned

namespace ReaderPhase

/-- The subscription the thread armed and has not disarmed. -/
def armed? : ReaderPhase → Option HeldSub
  | armed sub | reading sub | ended sub => some sub
  | checking | connecting | connected _ | waiting _ | locked _ | found .. | offline | rechecking
  | sleeping | returned => none

def locks : ReaderPhase → Bool
  | locked _ | found .. => true
  | checking | connecting | connected _ | waiting _ | armed _ | reading _ | ended _ | offline
  | rechecking | sleeping | returned => false

end ReaderPhase

inductive WindowPhase where
  | shown
  | stored
  | tripped

/-- The cancellation cell, the drain's end of the bridge, and the two that share them. `left` is
what a socket still has to be read once it is shut. -/
structure EventWindow where
  stop : Bool
  handle : Option Nat
  window : WindowPhase
  receiver : Bool
  phase : ReaderPhase
  sockets : Nat
  shut : List Nat
  left : Nat

inductive ReaderStep where
  | check
  | connect (cloned : Option Bool)
  | tell
  | lock
  | load
  | arm
  | ready
  | frame (concerns : Bool)
  | finish
  | disarm
  | offline
  | recheck
  | wake

inductive WindowStep where
  | store
  | take (left : Nat)
  | drop

inductive ShutdownStep where
  | reader (label : ReaderStep)
  | window (label : WindowStep)

def ShutdownStep.isReader : ShutdownStep → Bool
  | reader _ => true
  | window _ => false

namespace EventWindow

def opening : EventWindow := ⟨false, none, .shown, true, .checking, 0, [], 0⟩

/-- A message over the bridge: without a receiver the thread stops. -/
def send (w : EventWindow) (phase : ReaderPhase) : EventWindow :=
  { w with phase := if w.receiver then phase else .returned }

/-- `run_subscription`; the air window, which `widens`, says so before it arms and forwards only
what concerns it. -/
def reader (widens : Bool) (w : EventWindow) (label : ReaderStep) : Option EventWindow :=
  match w.phase, label with
  | .checking, .check => some { w with phase := if w.stop then .returned else .connecting }
  | .connecting, .connect none => some { w with phase := .offline }
  | .connecting, .connect (some cloned) =>
    some { w with sockets := w.sockets + 1, phase := .connected ⟨w.sockets, cloned⟩ }
  | .connected sub, .tell =>
    some (if widens then w.send (.waiting sub) else { w with phase := .waiting sub })
  | .waiting sub, .lock => some { w with phase := .locked sub }
  | .locked sub, .load => some { w with phase := .found sub w.stop }
  | .found sub true, .arm =>
    some { w with
      shut := if sub.cloned then sub.socket :: w.shut else w.shut
      handle := none
      phase := .returned }
  | .found sub false, .arm =>
    some { w with handle := if sub.cloned then some sub.socket else none, phase := .armed sub }
  | .armed sub, .ready => some (w.send (.reading sub))
  | .reading sub, .frame concerns =>
    let shut := w.shut.contains sub.socket
    if shut && w.left == 0 then none
    else
      let w := { w with left := if shut then w.left - 1 else w.left }
      some (if widens && !concerns then w else w.send (.reading sub))
  | .reading sub, .finish => some { w with phase := .ended sub }
  | .ended _, .disarm => some { w with handle := none, phase := .offline }
  | .offline, .offline => some (w.send .rechecking)
  | .rechecking, .recheck => some { w with phase := if w.stop then .returned else .sleeping }
  | .sleeping, .wake => some { w with phase := .checking }
  | _, _ => none

/-- `trip`, and the drain that drops its end once the window is released. -/
def close (w : EventWindow) : WindowStep → Option EventWindow
  | .store =>
    match w.window with
    | .shown => some { w with stop := true, window := .stored }
    | .stored | .tripped => none
  | .take left =>
    match w.window with
    | .stored =>
      if w.phase.locks then none
      else
        match w.handle with
        | some socket =>
          some { w with
            shut := socket :: w.shut, left := left, handle := none, window := .tripped }
        | none => some { w with window := .tripped }
    | .shown | .tripped => none
  | .drop =>
    match w.window with
    | .shown => none
    | .stored | .tripped => some { w with receiver := false }

def step (widens : Bool) (w : EventWindow) : ShutdownStep → Option EventWindow
  | .reader label => w.reader widens label
  | .window label => w.close label

/-- How many steps the thread has left once the window tripped. -/
def remaining (w : EventWindow) : Nat :=
  match w.phase with
  | .returned => 0
  | .checking | .rechecking | .found .. => 1
  | .offline | .sleeping | .locked _ => 2
  | .waiting _ | .ended _ => 3
  | .connected _ => 4
  | .connecting => 5
  | .reading _ => w.left + 4
  | .armed _ => w.left + 5

/-- What the flag and the cell say of the two. -/
structure Sound (w : EventWindow) : Prop where
  flag : w.stop = true ↔ w.window ≠ .shown
  receiver : w.window = .shown → w.receiver = true
  returned : w.window = .shown → w.phase ≠ .returned
  found : ∀ sub, w.phase = .found sub false → w.window ≠ .tripped
  stale : ∀ sub, w.phase = .found sub true → w.window ≠ .shown
  empty : w.phase.armed? = none → w.phase ≠ .returned → w.handle = none
  cell : ∀ sub, w.phase.armed? = some sub → w.window ≠ .tripped →
    w.handle = if sub.cloned then some sub.socket else none
  tripped : w.window = .tripped → w.handle = none
  taken : ∀ sub, w.phase.armed? = some sub → w.window = .tripped → sub.cloned = true →
    sub.socket ∈ w.shut

section

variable {widens : Bool} {w w' : EventWindow}

theorem sound_opening : opening.Sound := by
  refine ⟨⟨nofun, fun other => absurd rfl other⟩, fun _ => rfl, fun _ => nofun, fun _ => nofun,
    fun _ => nofun, fun _ _ => rfl, fun _ => nofun, fun _ => rfl, fun _ => nofun⟩

/-- A step of the thread that arms nothing and disarms nothing, and reads no flag. -/
theorem Sound.move (sound : w.Sound) (stop : w'.stop = w.stop) (handle : w'.handle = w.handle)
    (window : w'.window = w.window) (receiver : w'.receiver = w.receiver) (shut : w'.shut = w.shut)
    (bare : w'.phase = .returned ∧ w.window ≠ .shown ∨
      w'.phase.armed? = w.phase.armed? ∧ w.phase ≠ .returned ∧ w'.phase ≠ .returned)
    (unfound : ∀ sub stopped, w'.phase ≠ .found sub stopped) : w'.Sound := by
  constructor
  · rw [stop, window]
    exact sound.flag
  · rw [window, receiver]
    exact sound.receiver
  · intro shown
    rcases bare with ⟨_, away⟩ | ⟨_, _, going⟩
    · exact absurd (window.symm.trans shown) away
    · exact going
  · exact fun sub found => absurd found (unfound sub false)
  · exact fun sub found => absurd found (unfound sub true)
  · intro none_ going
    rcases bare with ⟨gone, _⟩ | ⟨same, was, _⟩
    · exact absurd gone going
    · rw [handle]
      exact sound.empty (same.symm.trans none_) was
  · intro sub armed before
    rcases bare with ⟨gone, _⟩ | ⟨same, _, _⟩
    · rw [gone] at armed
      cases armed
    · rw [handle]
      exact sound.cell sub (same.symm.trans armed) (window ▸ before)
  · rw [window, handle]
    exact sound.tripped
  · intro sub armed after
    rcases bare with ⟨gone, _⟩ | ⟨same, _, _⟩
    · rw [gone] at armed
      cases armed
    · rw [shut]
      exact sound.taken sub (same.symm.trans armed) (window.symm.trans after)

theorem Sound.send (sound : w.Sound) {phase : ReaderPhase} (was : w.phase ≠ .returned)
    (same : phase.armed? = w.phase.armed?) (going : phase ≠ .returned)
    (unfound : ∀ sub stopped, phase ≠ .found sub stopped) : (w.send phase).Sound := by
  unfold EventWindow.send
  cases there : w.receiver with
  | true =>
    exact sound.move rfl rfl rfl there.symm rfl (.inr ⟨same, was, going⟩) unfound
  | false =>
    refine sound.move rfl rfl rfl there.symm rfl (.inl ⟨rfl, fun shown => ?_⟩) (fun _ _ => nofun)
    rw [sound.receiver shown] at there
    cases there

theorem Sound.reader (sound : w.Sound) {label : ReaderStep}
    (stepped : w.reader widens label = some w') : w'.Sound := by
  unfold EventWindow.reader at stepped
  split at stepped
  next phase =>
    cases stepped
    refine sound.move rfl rfl rfl rfl rfl ?_ ?_
    · cases stop : w.stop with
      | true => exact .inl ⟨rfl, sound.flag.mp stop⟩
      | false => exact .inr ⟨by rw [phase]; rfl, by rw [phase]; nofun, nofun⟩
    · cases w.stop <;> exact fun _ _ => nofun
  next phase =>
    cases stepped
    exact sound.move rfl rfl rfl rfl rfl (.inr ⟨by rw [phase]; rfl, by rw [phase]; nofun, nofun⟩)
      (fun _ _ => nofun)
  next phase =>
    cases stepped
    exact sound.move rfl rfl rfl rfl rfl (.inr ⟨by rw [phase]; rfl, by rw [phase]; nofun, nofun⟩)
      (fun _ _ => nofun)
  next sub phase =>
    cases stepped
    split
    · exact sound.send (by rw [phase]; nofun) (by rw [phase]; rfl) nofun (fun _ _ => nofun)
    · exact sound.move rfl rfl rfl rfl rfl (.inr ⟨by rw [phase]; rfl, by rw [phase]; nofun, nofun⟩)
        (fun _ _ => nofun)
  next sub phase =>
    cases stepped
    exact sound.move rfl rfl rfl rfl rfl (.inr ⟨by rw [phase]; rfl, by rw [phase]; nofun, nofun⟩)
      (fun _ _ => nofun)
  next sub phase =>
    cases stepped
    have bare : w.phase.armed? = none := by rw [phase]; rfl
    have going : w.phase ≠ .returned := by rw [phase]; nofun
    refine ⟨sound.flag, sound.receiver, fun _ => nofun, fun held found => ?_, fun held found => ?_,
      fun _ _ => sound.empty bare going, fun _ => nofun, sound.tripped, fun _ => nofun⟩
    · intro tripped
      have stop : w.stop = false := (ReaderPhase.found.inj found).2
      have set := sound.flag.mpr (by
        change w.window = .tripped at tripped
        rw [tripped]
        nofun)
      rw [stop] at set
      cases set
    · exact sound.flag.mp (ReaderPhase.found.inj found).2
  next sub phase =>
    cases stepped
    have away : w.window ≠ .shown := sound.stale sub phase
    exact ⟨sound.flag, sound.receiver, fun shown => absurd shown away, fun _ => nofun,
      fun _ => nofun, fun _ going => absurd rfl going, fun _ => nofun, fun _ => rfl, fun _ => nofun⟩
  next sub phase =>
    cases stepped
    have early : w.window ≠ .tripped := sound.found sub phase
    refine ⟨sound.flag, sound.receiver, fun _ => nofun, fun _ => nofun, fun _ => nofun,
      fun none_ => ?_, fun held armed _ => ?_, fun tripped => absurd tripped early,
      fun _ _ tripped => absurd tripped early⟩
    · cases none_
    · cases armed
      rfl
  next sub phase =>
    cases stepped
    exact sound.send (by rw [phase]; nofun) (by rw [phase]; rfl) nofun (fun _ _ => nofun)
  next sub concerns phase =>
    dsimp only at stepped
    split at stepped
    next => cases stepped
    next =>
      cases stepped
      have same : Sound { w with
          left := if w.shut.contains sub.socket = true then w.left - 1 else w.left } :=
        ⟨sound.flag, sound.receiver, sound.returned, sound.found, sound.stale, sound.empty,
          sound.cell, sound.tripped, sound.taken⟩
      split
      · exact same
      · exact same.send (by rw [phase]; nofun) (by rw [phase]) nofun (fun _ _ => nofun)
  next sub phase =>
    cases stepped
    exact sound.move rfl rfl rfl rfl rfl (.inr ⟨by rw [phase]; rfl, by rw [phase]; nofun, nofun⟩)
      (fun _ _ => nofun)
  next sub phase =>
    cases stepped
    exact ⟨sound.flag, sound.receiver, fun _ => nofun, fun _ => nofun, fun _ => nofun,
      fun _ _ => rfl, fun _ => nofun, fun _ => rfl, fun _ => nofun⟩
  next phase =>
    cases stepped
    exact sound.send (by rw [phase]; nofun) (by rw [phase]; rfl) nofun (fun _ _ => nofun)
  next phase =>
    cases stepped
    refine sound.move rfl rfl rfl rfl rfl ?_ ?_
    · cases stop : w.stop with
      | true => exact .inl ⟨rfl, sound.flag.mp stop⟩
      | false => exact .inr ⟨by rw [phase]; rfl, by rw [phase]; nofun, nofun⟩
    · cases w.stop <;> exact fun _ _ => nofun
  next phase =>
    cases stepped
    exact sound.move rfl rfl rfl rfl rfl (.inr ⟨by rw [phase]; rfl, by rw [phase]; nofun, nofun⟩)
      (fun _ _ => nofun)
  next => cases stepped

theorem Sound.close (sound : w.Sound) {label : WindowStep} (stepped : w.close label = some w') :
    w'.Sound := by
  cases label with
  | store =>
    unfold EventWindow.close at stepped
    dsimp only at stepped
    split at stepped
    next shown =>
      cases stepped
      have early : w.window ≠ .tripped := by rw [shown]; nofun
      refine ⟨⟨fun _ => nofun, fun _ => rfl⟩, nofun, nofun, fun _ _ => nofun, fun _ _ => nofun,
        sound.empty, fun sub armed _ => sound.cell sub armed early, nofun, fun _ _ => nofun⟩
    next => cases stepped
    next => cases stepped
  | take left =>
    unfold EventWindow.close at stepped
    dsimp only at stepped
    split at stepped
    next stored =>
      have early : w.window ≠ .tripped := by rw [stored]; nofun
      have set := sound.flag.mpr (by rw [stored]; nofun)
      split at stepped
      next => cases stepped
      next unlocked =>
        have unfound (sub : HeldSub) (stopped : Bool) : w.phase ≠ .found sub stopped := by
          intro found
          rw [found] at unlocked
          exact unlocked rfl
        split at stepped
        next socket there =>
          cases stepped
          refine ⟨⟨fun _ => nofun, fun _ => set⟩, nofun, nofun,
            fun sub found => absurd found (unfound sub false), fun _ _ => nofun, fun _ _ => rfl,
            fun _ _ other => absurd rfl other, fun _ => rfl, fun sub armed _ cloned => ?_⟩
          have cell := sound.cell sub armed early
          rw [there, if_pos cloned] at cell
          cases cell
          exact List.mem_cons_self
        next none_ =>
          cases stepped
          refine ⟨⟨fun _ => nofun, fun _ => set⟩, nofun, nofun,
            fun sub found => absurd found (unfound sub false), fun _ _ => nofun, sound.empty,
            fun _ _ other => absurd rfl other, fun _ => none_, fun sub armed _ cloned => ?_⟩
          have cell := sound.cell sub armed early
          rw [none_, if_pos cloned] at cell
          cases cell
    next => cases stepped
    next => cases stepped
  | drop =>
    unfold EventWindow.close at stepped
    dsimp only at stepped
    have kept (away : w.window ≠ .shown) : Sound { w with receiver := false } :=
      ⟨sound.flag, fun shown => absurd shown away, sound.returned, sound.found, sound.stale,
        sound.empty, sound.cell, sound.tripped, sound.taken⟩
    split at stepped
    next => cases stepped
    next stored =>
      cases stepped
      exact kept (by rw [stored]; nofun)
    next tripped =>
      cases stepped
      exact kept (by rw [tripped]; nofun)

theorem Sound.step (sound : w.Sound) {label : ShutdownStep}
    (stepped : w.step widens label = some w') : w'.Sound := by
  cases label with
  | reader label => exact sound.reader stepped
  | window label => exact sound.close stepped

theorem sound_run {labels : List ShutdownStep}
    (ran : runSteps (EventWindow.step widens) opening labels = some w) : w.Sound :=
  runSteps_invariant (fun _ _ _ stepped sound => sound.step stepped) ran sound_opening

/-- No armed subscription is one the window has no handle to. -/
def Handled (w : EventWindow) : Prop := ∀ sub, w.phase.armed? = some sub → sub.cloned = true

theorem send_remaining (phase : ReaderPhase) :
    (w.send phase).remaining ≤ ({ w with phase := phase } : EventWindow).remaining := by
  unfold EventWindow.send
  cases w.receiver with
  | true => exact Nat.le_refl _
  | false => exact Nat.zero_le _

theorem send_armed {phase : ReaderPhase} {sub : HeldSub}
    (armed : (w.send phase).phase.armed? = some sub) : phase.armed? = some sub := by
  unfold EventWindow.send at armed
  cases there : w.receiver with
  | true =>
    rw [there] at armed
    exact armed
  | false =>
    rw [there] at armed
    cases armed

/-- Once the window tripped every step of the thread brings it nearer its end, and arms nothing. -/
theorem Sound.nears (sound : w.Sound) (tripped : w.window = .tripped) (handled : w.Handled)
    {label : ReaderStep} (stepped : w.reader widens label = some w') :
    w'.remaining < w.remaining ∧ w'.window = .tripped ∧
      ∀ sub, w'.phase.armed? = some sub → w.phase.armed? = some sub := by
  have stop : w.stop = true := sound.flag.mpr (by rw [tripped]; nofun)
  unfold EventWindow.reader at stepped
  split at stepped
  next phase =>
    cases stepped
    rw [stop]
    exact ⟨by simp [remaining, phase], tripped, fun _ => nofun⟩
  next phase =>
    cases stepped
    exact ⟨by simp [remaining, phase], tripped, fun _ => nofun⟩
  next phase =>
    cases stepped
    exact ⟨by simp [remaining, phase], tripped, fun _ => nofun⟩
  next sub phase =>
    cases stepped
    have less : ({ w with phase := .waiting sub } : EventWindow).remaining < w.remaining := by
      simp [remaining, phase]
    split
    · refine ⟨Nat.lt_of_le_of_lt (send_remaining _) less, tripped, fun _ armed => ?_⟩
      cases send_armed armed
    · exact ⟨less, tripped, fun _ => nofun⟩
  next sub phase =>
    cases stepped
    exact ⟨by simp [remaining, phase], tripped, fun _ => nofun⟩
  next sub phase =>
    cases stepped
    exact ⟨by simp [remaining, phase], tripped, fun _ => nofun⟩
  next sub phase =>
    cases stepped
    exact ⟨by simp [remaining, phase], tripped, fun _ => nofun⟩
  next sub phase => exact absurd tripped (sound.found sub phase)
  next sub phase =>
    cases stepped
    have less : ({ w with phase := .reading sub } : EventWindow).remaining < w.remaining := by
      simp [remaining, phase]
    refine ⟨Nat.lt_of_le_of_lt (send_remaining _) less, tripped, fun held armed => ?_⟩
    have there : (ReaderPhase.reading sub).armed? = some held := send_armed armed
    rw [phase]
    exact there
  next sub concerns phase =>
    have armed : w.phase.armed? = some sub := by rw [phase]; rfl
    have shut := List.contains_iff_mem.mpr (sound.taken sub armed tripped (handled sub armed))
    rw [shut] at stepped
    dsimp only at stepped
    split at stepped
    next => cases stepped
    next more =>
      cases stepped
      have some_ : 0 < w.left := by
        rcases Nat.eq_zero_or_pos w.left with none_ | some_
        · rw [none_] at more
          exact absurd rfl more
        · exact some_
      have less : ({ w with left := w.left - 1 } : EventWindow).remaining < w.remaining := by
        simp only [remaining, phase]
        omega
      have same : ({ w with left := w.left - 1, phase := .reading sub } : EventWindow).remaining =
          ({ w with left := w.left - 1 } : EventWindow).remaining := by
        simp only [remaining, phase]
      split
      · exact ⟨less, tripped, fun _ armed => armed⟩
      · refine ⟨Nat.lt_of_le_of_lt (send_remaining _) (same ▸ less), tripped, fun held there => ?_⟩
        rw [phase]
        exact send_armed there
  next sub phase =>
    cases stepped
    refine ⟨?_, tripped, fun _ armed => by rw [phase]; exact armed⟩
    simp only [remaining, phase]
    omega
  next sub phase =>
    cases stepped
    exact ⟨by simp [remaining, phase], tripped, fun _ => nofun⟩
  next phase =>
    cases stepped
    have less : ({ w with phase := .rechecking } : EventWindow).remaining < w.remaining := by
      simp [remaining, phase]
    refine ⟨Nat.lt_of_le_of_lt (send_remaining _) less, tripped, fun _ armed => ?_⟩
    cases send_armed armed
  next phase =>
    cases stepped
    rw [stop]
    exact ⟨by simp [remaining, phase], tripped, fun _ => nofun⟩
  next phase =>
    cases stepped
    exact ⟨by simp [remaining, phase], tripped, fun _ => nofun⟩
  next => cases stepped

theorem drop_remaining {label : WindowStep} (tripped : w.window = .tripped)
    (stepped : w.close label = some w') : w'.window = .tripped ∧ w'.phase = w.phase ∧
      w'.remaining = w.remaining := by
  cases label with
  | store | take left =>
    unfold EventWindow.close at stepped
    rw [tripped] at stepped
    cases stepped
  | drop =>
    unfold EventWindow.close at stepped
    rw [tripped] at stepped
    cases stepped
    exact ⟨rfl, rfl, rfl⟩

/-- Behind the window's end the thread has only so many steps, and arms no subscription. -/
theorem Sound.ends (sound : w.Sound) (tripped : w.window = .tripped) (handled : w.Handled)
    {later : List ShutdownStep} (ran : runSteps (EventWindow.step widens) w later = some w') :
    later.countP ShutdownStep.isReader + w'.remaining ≤ w.remaining ∧
      ∀ sub, w'.phase.armed? = some sub → w.phase.armed? = some sub := by
  induction later generalizing w with
  | nil =>
    cases ran
    exact ⟨Nat.le_of_eq (Nat.zero_add _), fun _ armed => armed⟩
  | cons label later ih =>
    obtain ⟨v, stepped, rest⟩ := runSteps_cons_eq_some.mp ran
    cases label with
    | reader label =>
      obtain ⟨nearer, still, armed⟩ := sound.nears tripped handled stepped
      have kept : v.Handled := fun sub there => handled sub (armed sub there)
      obtain ⟨count, before⟩ := ih (sound.reader stepped) still kept rest
      rw [List.countP_cons_of_pos rfl]
      exact ⟨by omega, fun sub there => armed sub (before sub there)⟩
    | window label =>
      obtain ⟨still, phase, same⟩ := drop_remaining tripped stepped
      have kept : v.Handled := fun sub there => handled sub (phase ▸ there)
      obtain ⟨count, before⟩ := ih (sound.close stepped) still kept rest
      rw [List.countP_cons_of_neg (by exact Bool.false_ne_true)]
      exact ⟨by omega, fun sub there => phase ▸ before sub there⟩

end

end EventWindow

end NetObserver
