import NetObserver.Verdicts

/-! The control path: what an operator's pause, resume or tier switch does to the state the
collectors and the consumer share. -/

namespace NetObserver

inductive ObservingCause where
  | control
  | startup
deriving DecidableEq

structure ObservingEdge where
  tsUs : Int
  observing : Bool
  peerUid : Option Nat
  cause : ObservingCause
deriving DecidableEq

inductive ProbingReason where
  | control
  | startup
  | experiment
  | experimentEnd
deriving DecidableEq

structure ProbingEdge where
  tsUs : Int
  tier : ProbingTier
  peerUid : Option Nat
  reason : ProbingReason
deriving DecidableEq

inductive EdgePolicy where
  | onChange
  | always
deriving DecidableEq

def ProbingTier.asStr : ProbingTier → String
  | .passive => "passive"
  | .active => "active"

/-- The shared atomics, and the two fields of the status snapshot that mirror them. -/
structure Shared where
  observing : Bool
  probing : ProbingTier
  resumeAtUs : Int
  sessionEndUs : Int
  snapObserving : Bool
  snapProbing : ProbingTier
deriving DecidableEq

def Shared.start (tier : ProbingTier) : Shared := ⟨true, tier, 0, 0, true, tier⟩

/-- `compare_exchange(0, ts_us)`: the first end nobody consumed yet wins. -/
def firstEnd (sessionEndUs tsUs : Int) : Int := if sessionEndUs = 0 then tsUs else sessionEndUs

/-- `SetObserving` under the snapshot lock at the instant `tsUs`, with the edge it publishes. -/
def setObserving (s : Shared) (b : Bool) (peerUid : Nat) (tsUs : Int) :
    Shared × Option ObservingEdge :=
  if s.observing = b then (s, none)
  else
    let bracketed :=
      if b then { s with resumeAtUs := tsUs }
      else { s with sessionEndUs := firstEnd s.sessionEndUs tsUs }
    ({ bracketed with observing := b, snapObserving := b }, some ⟨tsUs, b, some peerUid, .control⟩)

structure Switched where
  edge : ProbingEdge
  was : ProbingTier
deriving DecidableEq

/-- The locked part of `switch_probing`: `target` names the tier to move to from the one found,
or refuses with a message. -/
def switchProbing (s : Shared) (target : ProbingTier → Except String ProbingTier)
    (peerUid : Option Nat) (reason : ProbingReason) (policy : EdgePolicy) (tsUs : Int) :
    Shared × Except String (Option Switched) :=
  match target s.probing with
  | .error message => (s, .error message)
  | .ok tier =>
    if s.probing = tier ∧ policy = .onChange then (s, .ok none)
    else
      let moved :=
        if s.probing = tier then s
        else
          { s with
            sessionEndUs := firstEnd s.sessionEndUs tsUs
            resumeAtUs := tsUs
            probing := tier
            snapProbing := tier }
      (moved, .ok (some ⟨⟨tsUs, tier, peerUid, reason⟩, s.probing⟩))

def setProbing (s : Shared) (tier : ProbingTier) (peerUid : Nat) (tsUs : Int) :
    Shared × Except String (Option Switched) :=
  switchProbing s (fun _ => .ok tier) (some peerUid) .control .onChange tsUs

/-- An experiment opens by going passive, and only while the daemon observes. -/
def openingSwitch (s : Shared) (peerUid : Nat) (tsUs : Int) :
    Shared × Except String (Option Switched) :=
  switchProbing s
    (fun _ =>
      if s.observing then .ok .passive
      else .error "observation is paused; resume before starting an experiment")
    (some peerUid) .experiment .always tsUs

/-- An experiment closes by restoring the tier it found, if it still may. -/
def closingSwitch (s : Shared) (mayRestore : Bool) (tierBefore : ProbingTier) (peerUid : Nat)
    (tsUs : Int) : Shared × Except String (Option Switched) :=
  switchProbing s (fun was => .ok (if was = .passive ∧ mayRestore then tierBefore else was))
    (some peerUid) .experimentEnd .always tsUs

structure ControlResult where
  ok : Bool
  message : String
deriving DecidableEq

/-- What a failed boundary write adds to the operator's message; it never fails the control. -/
def boundaryNote : Except String Unit → String
  | .ok _ => ""
  | .error e => " (boundary record failed: " ++ e ++ ")"

/-- The answer to `SetObserving`: the edge, if any, is written after the lock is released. -/
def setObservingResult (b : Bool) (edge : Option ObservingEdge)
    (write : ObservingEdge → Except String Unit) : ControlResult :=
  let label := if b then "on" else "off"
  match edge with
  | none => ⟨true, "observing " ++ label⟩
  | some e => ⟨true, "observing " ++ label ++ boundaryNote (write e)⟩

def setProbingResult (tier : ProbingTier) (switched : Except String (Option Switched))
    (write : ProbingEdge → Except String Unit) : ControlResult :=
  match switched with
  | .error message => ⟨false, message⟩
  | .ok none => ⟨true, "probing " ++ tier.asStr⟩
  | .ok (some sw) => ⟨true, "probing " ++ tier.asStr ++ boundaryNote (write sw.edge)⟩

theorem setObservingResult_ok (b : Bool) (edge : Option ObservingEdge)
    (write : ObservingEdge → Except String Unit) : (setObservingResult b edge write).ok = true := by
  cases edge <;> rfl

/-- A switch is never answered as a failure: it has already happened. -/
theorem setProbingResult_ok (s : Shared) (tier : ProbingTier) (peerUid : Nat) (tsUs : Int)
    (write : ProbingEdge → Except String Unit) :
    (setProbingResult tier (setProbing s tier peerUid tsUs).2 write).ok = true := by
  unfold setProbing switchProbing
  by_cases same : s.probing = tier <;> simp [same, setProbingResult]

/-- A step of the control path either changes nothing or publishes an edge at its instant. -/
theorem switchProbing_cases (s : Shared) (target : ProbingTier → Except String ProbingTier)
    (peerUid : Option Nat) (reason : ProbingReason) (policy : EdgePolicy) (tsUs : Int) :
    (∃ answer, (∀ sw, answer ≠ .ok (some sw)) ∧
      switchProbing s target peerUid reason policy tsUs = (s, answer)) ∨
    (target s.probing = .ok s.probing ∧
      switchProbing s target peerUid reason policy tsUs =
        (s, .ok (some ⟨⟨tsUs, s.probing, peerUid, reason⟩, s.probing⟩))) ∨
    (∃ tier, target s.probing = .ok tier ∧ tier ≠ s.probing ∧
      switchProbing s target peerUid reason policy tsUs =
        ({ s with
          sessionEndUs := firstEnd s.sessionEndUs tsUs
          resumeAtUs := tsUs
          probing := tier
          snapProbing := tier }, .ok (some ⟨⟨tsUs, tier, peerUid, reason⟩, s.probing⟩))) := by
  unfold switchProbing
  cases aim : target s.probing with
  | error message => exact .inl ⟨_, by simp, rfl⟩
  | ok tier =>
    by_cases same : s.probing = tier
    · subst same
      by_cases onChange : policy = .onChange
      · exact .inl ⟨.ok none, by simp, by simp [onChange]⟩
      · exact .inr (.inl ⟨rfl, by simp [onChange]⟩)
    · exact .inr (.inr ⟨tier, rfl, Ne.symm same, by simp [same]⟩)

end NetObserver
