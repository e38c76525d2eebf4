import NetObserver.ControlPath
import NetObserver.ResumeGate
import NetObserver.TriggerEngine

/-! The pipeline's consumer, from the sample it takes to the rules it judges. -/

namespace NetObserver

variable {η : Type*}

/-- What `run` keeps between two samples. -/
structure Consumer (η : Type*) where
  gate : ResumeGate
  window : RecentWindow
  engine : TriggerEngine η

def Consumer.new (engine : TriggerEngine η) : Consumer η := ⟨.new, .new windowCap, engine⟩

/-- The flow table and the announce listener's samples are no rule's evidence. -/
def staysOutOfTheWindow : Sample → Bool
  | .connections _ => true
  | .neighbors n => n.isListenerFlush
  | _ => false

namespace Consumer

/-- The instant an edge closes the previous session at: its recorded end, else the epoch. -/
def closedAtUs (sessionEndUs epochUs : Int) : Int :=
  if 0 < sessionEndUs then sessionEndUs else epochUs

/-- An accepted edge closes what is open, clears the window and re-arms the engine; the
recorded session end is consumed. -/
def applyEdge (c : Consumer η) (s : Shared) : Consumer η × Shared × List Delivery :=
  let closed := c.engine.closeAll (closedAtUs s.sessionEndUs c.gate.appliedResumeUs)
  (⟨c.gate, c.window.clearForResume, closed.1.rearmAll⟩, { s with sessionEndUs := 0 }, closed.2)

/-- A sample past the edge check: kept out by the gate, kept out for its kind, or judged. -/
def judge (c : Consumer η) (sample : Sample) (now : Nat) : Consumer η × List Delivery :=
  let seen := c.gate.shouldDrop sample.tsUs now
  if seen.2 then ({ c with gate := seen.1 }, [])
  else if staysOutOfTheWindow sample then ({ c with gate := seen.1 }, [])
  else
    let window := c.window.push sample
    let judged := c.engine.onSample window sample.tsUs
    (⟨seen.1, window, judged.1⟩, judged.2)

/-- One turn of the loop: whether an edge was accepted, the consumer past it, and at the end. -/
structure Turn (η : Type*) where
  accepted : Bool
  edged : Consumer η
  shared : Shared
  done : Consumer η
  calls : List Delivery

def take (c : Consumer η) (s : Shared) (sample : Sample) (now : Nat) : Turn η :=
  let seen := c.gate.observeEdge s.resumeAtUs now
  let observed : Consumer η := { c with gate := seen.1 }
  let past := if seen.2 then observed.applyEdge s else (observed, s, [])
  let judged := past.1.judge sample now
  ⟨seen.2, past.1, past.2.1, judged.1, past.2.2 ++ judged.2⟩

theorem observeEdge_accepted {g : ResumeGate} {resumeUs : Int} {now : Nat} :
    (g.observeEdge resumeUs now).2 = true ↔ resumeUs ≠ g.appliedResumeUs := by
  unfold ResumeGate.observeEdge
  by_cases same : resumeUs = g.appliedResumeUs <;> simp [same]

theorem observeEdge_applied (g : ResumeGate) (resumeUs : Int) (now : Nat) :
    (g.observeEdge resumeUs now).1.appliedResumeUs = resumeUs := by
  unfold ResumeGate.observeEdge
  by_cases same : resumeUs = g.appliedResumeUs <;> simp [same]

theorem shouldDrop_applied (g : ResumeGate) (tsUs : Int) (now : Nat) :
    (g.shouldDrop tsUs now).1.appliedResumeUs = g.appliedResumeUs := by
  rcases g.shouldDrop_cases tsUs now with
    ⟨_, eq⟩ | ⟨_, _, _, eq⟩ | ⟨_, _, _, _, eq⟩ | ⟨_, _, _, _, _, _, eq⟩
  · rw [eq]
  · rw [eq]
    rfl
  · rw [eq]
  · rw [eq]

theorem judge_gate (c : Consumer η) (sample : Sample) (now : Nat) :
    (c.judge sample now).1.gate = (c.gate.shouldDrop sample.tsUs now).1 := by
  simp only [judge]
  split
  next => rfl
  next =>
    split
    next => rfl
    next => rfl

/-- After a turn the consumer has applied the epoch it read. -/
theorem take_applied (c : Consumer η) (s : Shared) (sample : Sample) (now : Nat) :
    (c.take s sample now).done.gate.appliedResumeUs = s.resumeAtUs := by
  have applied := observeEdge_applied c.gate s.resumeAtUs now
  simp only [take]
  rw [judge_gate, shouldDrop_applied]
  cases (c.gate.observeEdge s.resumeAtUs now).2 with
  | true => exact applied
  | false => exact applied

theorem take_edged_applied {c : Consumer η} {s : Shared} {sample : Sample} {now : Nat}
    (accepted : (c.take s sample now).accepted = true) :
    (c.take s sample now).edged.gate.appliedResumeUs = s.resumeAtUs := by
  have seen : (c.gate.observeEdge s.resumeAtUs now).2 = true := accepted
  simp only [take]
  rw [if_pos seen]
  exact observeEdge_applied c.gate s.resumeAtUs now

/-- A turn that accepts an edge consumes the recorded session end. -/
theorem take_shared_accepted {c : Consumer η} {s : Shared} {sample : Sample} {now : Nat}
    (accepted : (c.take s sample now).accepted = true) :
    (c.take s sample now).shared = { s with sessionEndUs := 0 } := by
  have seen : (c.gate.observeEdge s.resumeAtUs now).2 = true := accepted
  simp only [take]
  rw [if_pos seen]
  rfl

theorem take_shared_refused {c : Consumer η} {s : Shared} {sample : Sample} {now : Nat}
    (refused : (c.take s sample now).accepted = false) : (c.take s sample now).shared = s := by
  have seen : (c.gate.observeEdge s.resumeAtUs now).2 = false := refused
  simp only [take]
  rw [if_neg (seen ▸ Bool.false_ne_true)]

theorem take_accepted (c : Consumer η) (s : Shared) (sample : Sample) (now : Nat) :
    (c.take s sample now).accepted = true ↔ s.resumeAtUs ≠ c.gate.appliedResumeUs :=
  observeEdge_accepted

end Consumer

end NetObserver
