import NetObserver.LastSome
import NetObserver.Runs
import NetObserver.StreamFrames

/-! The air window's feed: the bounded bridge its reader and its button's threads send on, the drain
behind it, and what the window draws. -/

namespace NetObserver

open Runs LastSome

/-- Where the operator's scan has got to. -/
inductive AirWindow.ScanState where
  | idle
  | asking
  | scanning
  | refused (m : String)
  | lostTrack (m : String)
  | unsupported (m : String)

def AirWindow.ScanState.busy : AirWindow.ScanState → Bool
  | asking | scanning => true
  | _ => false

/-- What the bridge carries; a frame of a newer daemon is the note the client made of it. -/
inductive AirMsg where
  | frame (f : StreamFrame)
  | unrecognized (detail : String)
  | offline (reason : String)
  | widened (widened : Bool)
  | scan (state : AirWindow.ScanState)

structure AirFeed where
  air : Option AirSample
  own : Option WifiSample
  offline : Option String
  paused : Bool
  airUnsupported : Bool
  scan : AirWindow.ScanState
  scanDeadline : Option Nat

def scanBusyTimeoutNs : Nat := 60000000000

def airBridgeDepth : Nat := 32

/-- What a press comes to: the daemon's answer to `ScanAir`, or none of it. -/
inductive ScanAnswer where
  | ran (ok : Bool) (message : String)
  | unsupported (message : String)
  | failed (text : String)

def ScanAnswer.state : ScanAnswer → AirWindow.ScanState
  | ran true _ => .scanning
  | ran false message => .refused message
  | unsupported message => .unsupported message
  | failed text => .refused ("could not ask: " ++ text)

namespace AirFeed

def new : AirFeed := ⟨none, none, none, false, false, .idle, none⟩

def setScan (nowNs : Nat) (feed : AirFeed) (state : AirWindow.ScanState) : AirFeed :=
  { feed with
    scan := state
    scanDeadline := if state.busy then some (nowNs + scanBusyTimeoutNs) else none }

def expireScan (nowNs : Nat) (feed : AirFeed) : AirFeed :=
  match feed.scanDeadline with
  | none => feed
  | some deadline =>
    if nowNs < deadline then feed
    else feed.setScan nowNs
      (.lostTrack "no answer and no slice arrived; the scan may still have run")

def apply (nowNs : Nat) (feed : AirFeed) : AirMsg → AirFeed
  | .frame (.event (.air a)) =>
    let feed := { feed with offline := none, air := some a }
    if feed.scan.busy then feed.setScan nowNs .idle else feed
  | .frame (.event (.wifi w)) => { feed with offline := none, own := some w }
  | .frame (.ready r) => { feed with offline := none, paused := !r.observing }
  | .frame (.observing e) => { feed with offline := none, paused := !e.observing }
  | .frame (.error e) => { feed with offline := some ("daemon: " ++ e.message) }
  | .frame (.gap _) | .frame (.probing _) | .frame (.event _) => { feed with offline := none }
  | .unrecognized detail =>
    { feed with offline := some ("skipped a frame this bar cannot read: " ++ detail) }
  | .offline reason => { feed with offline := some reason }
  | .widened widened => { feed with airUnsupported := widened }
  | .scan state => feed.setScan nowNs state

end AirFeed

/-- The thread of one press: it waits for the daemon, then for room on the bridge. -/
inductive Asker where
  | asking
  | answered (state : AirWindow.ScanState)
  | sent (state : AirWindow.ScanState)

/-- The window beside its threads. `batch` is what the drain took off the channel, `polled` that it
found it empty then; `offered` are the messages its threads sent and `applied` those the feed had,
`dropped` counts what did not fit, `updatedNs` is when the feed was last brought up to date. -/
structure AirWindow where
  clockNs : Nat
  feed : AirFeed
  channel : List AirMsg
  batch : List AirMsg
  polled : Bool
  askers : List Asker
  offered : List AirMsg
  applied : List AirMsg
  dropped : Nat
  updatedNs : Nat

inductive AirWindow.Label where
  | wait (ns : Nat)
  | press (failure : Option String)
  | answer (k : Nat) (a : ScanAnswer)
  | send (k : Nat)
  | offer (m : AirMsg)
  | receive
  | poll
  | update

def AirMsg.scan? : AirMsg → Option AirWindow.ScanState
  | .scan state => some state
  | _ => none

def Asker.sent? : Asker → Option AirWindow.ScanState
  | .sent state => some state
  | _ => none

namespace AirWindow

def opening : AirWindow := ⟨0, .new, [], [], false, [], [], [], 0, 0⟩

/-- Whether the button is offered. -/
def pressable (w : AirWindow) : Bool := !w.feed.airUnsupported && !w.feed.scan.busy

def step (w : AirWindow) : Label → Option AirWindow
  | .wait ns => some { w with clockNs := w.clockNs + ns }
  | .press failure =>
    if w.pressable then
      let asking := w.feed.setScan w.clockNs .asking
      match failure with
      | none => some { w with feed := asking, askers := w.askers ++ [.asking] }
      | some e =>
        some { w with feed := asking.setScan w.clockNs (.refused ("could not ask: " ++ e)) }
    else none
  | .answer k a =>
    match w.askers[k]? with
    | some .asking => some { w with askers := w.askers.set k (.answered a.state) }
    | _ => none
  | .send k =>
    -- A full channel blocks the thread.
    match w.askers[k]? with
    | some (.answered state) =>
      if w.channel.length < airBridgeDepth then some { w with
        askers := w.askers.set k (.sent state)
        channel := w.channel ++ [.scan state]
        offered := w.offered ++ [.scan state] }
      else none
    | _ => none
  | .offer m =>
    match m with
    | .scan _ => none
    | m =>
      if w.channel.length < airBridgeDepth then
        some { w with channel := w.channel ++ [m], offered := w.offered ++ [m] }
      else some { w with dropped := w.dropped + 1, offered := w.offered ++ [m] }
  | .receive =>
    match w.channel with
    | m :: rest =>
      if w.polled then none else some { w with channel := rest, batch := w.batch ++ [m] }
    | [] => none
  | .poll => if w.channel = [] then some { w with polled := true } else none
  | .update =>
    if w.polled then some { w with
      feed := (w.batch.foldl (AirFeed.apply w.clockNs) w.feed).expireScan w.clockNs
      batch := []
      polled := false
      applied := w.applied ++ w.batch
      updatedNs := w.clockNs }
    else none

/-- Every message that fit, in order. -/
def delivered (w : AirWindow) : List AirMsg := w.applied ++ w.batch ++ w.channel

end AirWindow

/-! What each message says of what the window draws -/

namespace AirMsg

def air? : AirMsg → Option AirSample
  | .frame (.event (.air a)) => some a
  | _ => none

def own? : AirMsg → Option WifiSample
  | .frame (.event (.wifi w)) => some w
  | _ => none

def paused? : AirMsg → Option Bool
  | .frame (.ready r) => some !r.observing
  | .frame (.observing e) => some !e.observing
  | _ => none

def widened? : AirMsg → Option Bool
  | .widened w => some w
  | _ => none

/-- The link note a message leaves, or that it leaves none. -/
def offline? : AirMsg → Option (Option String)
  | .frame (.error e) => some (some ("daemon: " ++ e.message))
  | .frame _ => some none
  | .unrecognized detail => some (some ("skipped a frame this bar cannot read: " ++ detail))
  | .offline reason => some (some reason)
  | .widened _ | .scan _ => none

end AirMsg

namespace AirFeed

variable (now : Nat) (feed : AirFeed) (state : AirWindow.ScanState) (m : AirMsg)

/-- A change of the scan's state touches nothing else. -/
@[simp] theorem setScan_air : (feed.setScan now state).air = feed.air := rfl

@[simp] theorem setScan_own : (feed.setScan now state).own = feed.own := rfl

@[simp] theorem setScan_offline : (feed.setScan now state).offline = feed.offline := rfl

@[simp] theorem setScan_paused : (feed.setScan now state).paused = feed.paused := rfl

@[simp] theorem setScan_airUnsupported :
    (feed.setScan now state).airUnsupported = feed.airUnsupported := rfl

theorem expireScan_cases : feed.expireScan now = feed ∨ ∃ m, feed.expireScan now =
    feed.setScan now (.lostTrack m) := by
  unfold expireScan
  split
  next => exact .inl rfl
  next =>
    split
    next => exact .inl rfl
    next => exact .inr ⟨_, rfl⟩

/-- What a message changes of the drawing, and what it leaves. -/
theorem apply_drawn : (feed.apply now m).air = (m.air?).or feed.air ∧
    (feed.apply now m).own = (m.own?).or feed.own ∧
    (feed.apply now m).paused = (m.paused?).getD feed.paused ∧
    (feed.apply now m).airUnsupported = (m.widened?).getD feed.airUnsupported ∧
    (feed.apply now m).offline = (m.offline?).getD feed.offline := by
  cases m with
  | frame f =>
    cases f with
    | event e =>
      cases e with
      | air a =>
        unfold apply
        dsimp only
        split <;> exact ⟨rfl, rfl, rfl, rfl, rfl⟩
      | _ => exact ⟨rfl, rfl, rfl, rfl, rfl⟩
    | _ => exact ⟨rfl, rfl, rfl, rfl, rfl⟩
  | _ => exact ⟨rfl, rfl, rfl, rfl, rfl⟩

/-- A busy state has a deadline, and it is not further than the timeout from the moment. -/
structure Timed (now : Nat) (feed : AirFeed) : Prop where
  busy : feed.scan.busy = feed.scanDeadline.isSome
  bound : ∀ deadline, feed.scanDeadline = some deadline → deadline ≤ now + scanBusyTimeoutNs

variable {now feed}

theorem timed_setScan (now : Nat) (feed : AirFeed) (state : AirWindow.ScanState) :
    (feed.setScan now state).Timed now := by
  unfold setScan
  cases busy : state.busy with
  | false => exact ⟨busy, fun d same => by cases same⟩
  | true =>
    refine ⟨busy, fun d same => ?_⟩
    cases same
    exact Nat.le_refl _

theorem Timed.later {after : Nat} (timed : feed.Timed now) (le : now ≤ after) :
    feed.Timed after := by
  refine ⟨timed.busy, fun d same => ?_⟩
  have bound := timed.bound d same
  omega

theorem Timed.apply (timed : feed.Timed now) (m : AirMsg) : (feed.apply now m).Timed now := by
  have kept (feed' : AirFeed) (scan : feed'.scan = feed.scan)
      (deadline : feed'.scanDeadline = feed.scanDeadline) : feed'.Timed now := by
    constructor
    · rw [scan, deadline]
      exact timed.busy
    · rw [deadline]
      exact timed.bound
  cases m with
  | frame f =>
    cases f with
    | event e =>
      cases e with
      | air a =>
        unfold AirFeed.apply
        dsimp only
        split
        next => exact timed_setScan _ _ _
        next => exact kept _ rfl rfl
      | _ => exact kept _ rfl rfl
    | _ => exact kept _ rfl rfl
  | scan state => exact timed_setScan _ _ _
  | _ => exact kept _ rfl rfl

theorem Timed.foldl (timed : feed.Timed now) (batch : List AirMsg) :
    (batch.foldl (AirFeed.apply now) feed).Timed now := by
  induction batch generalizing feed with
  | nil => exact timed
  | cons m batch ih => exact ih (timed.apply m)

/-- Behind an update a busy state has its deadline ahead. -/
theorem Timed.expireScan (timed : feed.Timed now) : (feed.expireScan now).Timed now ∧
    ∀ deadline, (feed.expireScan now).scanDeadline = some deadline → now < deadline := by
  unfold AirFeed.expireScan
  split
  next none_ => exact ⟨timed, fun d same => by rw [none_] at same; cases same⟩
  next deadline set =>
    split
    next ahead =>
      refine ⟨timed, fun d same => ?_⟩
      rw [set] at same
      cases same
      exact ahead
    next => exact ⟨timed_setScan _ _ _, fun d same => by cases same⟩

end AirFeed

namespace AirWindow

variable {w w' : AirWindow} {label : Label}

/-- What a step does, by what it takes. -/
inductive Move (w : AirWindow) : Label → AirWindow → Prop
  | wait (ns : Nat) : Move w (.wait ns) { w with clockNs := w.clockNs + ns }
  | press (offered : w.pressable = true) : Move w (.press none) { w with
      feed := w.feed.setScan w.clockNs .asking, askers := w.askers ++ [.asking] }
  | unspawned (e : String) (offered : w.pressable = true) : Move w (.press (some e)) { w with
      feed := (w.feed.setScan w.clockNs .asking).setScan w.clockNs
        (.refused ("could not ask: " ++ e)) }
  | answer {k : Nat} (a : ScanAnswer) (waits : w.askers[k]? = some .asking) :
      Move w (.answer k a) { w with askers := w.askers.set k (.answered a.state) }
  | send {k : Nat} {state : ScanState} (holds : w.askers[k]? = some (.answered state)) :
      Move w (.send k) { w with
        askers := w.askers.set k (.sent state)
        channel := w.channel ++ [.scan state]
        offered := w.offered ++ [.scan state] }
  | deliver {m : AirMsg} (frame : m.scan? = none) : Move w (.offer m) { w with
      channel := w.channel ++ [m], offered := w.offered ++ [m] }
  | drop {m : AirMsg} (frame : m.scan? = none) (full : airBridgeDepth ≤ w.channel.length) :
      Move w (.offer m) { w with dropped := w.dropped + 1, offered := w.offered ++ [m] }
  | receive {m : AirMsg} {rest : List AirMsg} (front : w.channel = m :: rest) :
      Move w .receive { w with channel := rest, batch := w.batch ++ [m] }
  | poll : Move w .poll { w with polled := true }
  | update : Move w .update { w with
      feed := (w.batch.foldl (AirFeed.apply w.clockNs) w.feed).expireScan w.clockNs
      batch := []
      polled := false
      applied := w.applied ++ w.batch
      updatedNs := w.clockNs }

theorem step_move (stepped : w.step label = some w') : Move w label w' := by
  cases label with
  | wait ns =>
    cases stepped
    exact .wait ns
  | press failure =>
    simp only [step] at stepped
    split at stepped
    next offered =>
      cases failure with
      | none =>
        cases stepped
        exact .press offered
      | some e =>
        cases stepped
        exact .unspawned e offered
    next => cases stepped
  | answer k a =>
    simp only [step] at stepped
    split at stepped
    next waits =>
      cases stepped
      exact .answer a waits
    next => cases stepped
  | send k =>
    simp only [step] at stepped
    split at stepped
    next state holds =>
      split at stepped
      next =>
        cases stepped
        exact .send holds
      next => cases stepped
    next => cases stepped
  | offer m =>
    simp only [step] at stepped
    split at stepped
    next => cases stepped
    next notScan =>
      have frame : m.scan? = none := by
        unfold AirMsg.scan?
        split
        next state => exact absurd rfl (notScan state)
        next => rfl
      split at stepped
      next =>
        cases stepped
        exact .deliver frame
      next full =>
        cases stepped
        exact .drop frame (by omega)
  | receive =>
    simp only [step] at stepped
    split at stepped
    next m rest front =>
      split at stepped
      next => cases stepped
      next =>
        cases stepped
        exact .receive front
    next => cases stepped
  | poll =>
    simp only [step] at stepped
    split at stepped
    next =>
      cases stepped
      exact .poll
    next => cases stepped
  | update =>
    simp only [step] at stepped
    split at stepped
    next =>
      cases stepped
      exact .update
    next => cases stepped

theorem sent_set_none {askers : List Asker} {k : Nat} {a b : Asker} (found : askers[k]? = some a)
    (old : a.sent? = none) (new : b.sent? = none) :
    (askers.set k b).filterMap Asker.sent? = askers.filterMap Asker.sent? := by
  induction askers generalizing k with
  | nil => cases found
  | cons x askers ih =>
    cases k with
    | zero =>
      cases found
      rw [List.set_cons_zero, List.filterMap_cons_none new, List.filterMap_cons_none old]
    | succ k =>
      have rest := ih found
      rw [List.set_cons_succ, List.filterMap_cons, List.filterMap_cons, rest]

theorem sent_set_some {askers : List Asker} {k : Nat} {a : Asker} {state : ScanState}
    (found : askers[k]? = some a) (old : a.sent? = none) :
    ((askers.set k (.sent state)).filterMap Asker.sent?).Perm
      (askers.filterMap Asker.sent? ++ [state]) := by
  induction askers generalizing k with
  | nil => cases found
  | cons x askers ih =>
    cases k with
    | zero =>
      cases found
      have here : Asker.sent? (.sent state) = some state := rfl
      rw [List.set_cons_zero, List.filterMap_cons_some here, List.filterMap_cons_none old]
      exact (List.perm_append_singleton state _).symm
    | succ k =>
      have rest := ih found
      rw [List.set_cons_succ]
      cases given : x.sent? with
      | none =>
        rw [List.filterMap_cons_none given, List.filterMap_cons_none given]
        exact rest
      | some y =>
        rw [List.filterMap_cons_some given, List.filterMap_cons_some given]
        exact rest.cons y

/-- The feed after some messages: each part of the drawing is the last of them that tells of it. -/
structure Draws (feed : AirFeed) (applied : List AirMsg) : Prop where
  air : feed.air = lastSome? AirMsg.air? applied
  own : feed.own = lastSome? AirMsg.own? applied
  paused : feed.paused = (lastSome? AirMsg.paused? applied).getD false
  airUnsupported : feed.airUnsupported = (lastSome? AirMsg.widened? applied).getD false
  offline : feed.offline = (lastSome? AirMsg.offline? applied).join

theorem Draws.foldl {feed : AirFeed} {applied : List AirMsg} (draws : Draws feed applied)
    (now : Nat) (batch : List AirMsg) :
    Draws (batch.foldl (AirFeed.apply now) feed) (applied ++ batch) := by
  have drawn := AirFeed.apply_drawn now
  constructor
  · rw [lastSome?_append, field_foldl_or AirFeed.air (fun f m => (drawn f m).1), draws.air]
  · rw [lastSome?_append, field_foldl_or AirFeed.own (fun f m => (drawn f m).2.1), draws.own]
  · rw [lastSome?_append, field_foldl AirFeed.paused (fun f m => (drawn f m).2.2.1), draws.paused]
    cases lastSome? AirMsg.paused? batch <;> rfl
  · rw [lastSome?_append, field_foldl AirFeed.airUnsupported (fun f m => (drawn f m).2.2.2.1),
      draws.airUnsupported]
    cases lastSome? AirMsg.widened? batch <;> rfl
  · rw [lastSome?_append, field_foldl AirFeed.offline (fun f m => (drawn f m).2.2.2.2),
      draws.offline]
    cases lastSome? AirMsg.offline? batch <;> rfl

/-- The scan's state is no part of the drawing. -/
theorem Draws.setScan {feed : AirFeed} {applied : List AirMsg} (draws : Draws feed applied)
    (now : Nat) (state : ScanState) : Draws (feed.setScan now state) applied :=
  ⟨draws.air, draws.own, draws.paused, draws.airUnsupported, draws.offline⟩

theorem Draws.expireScan {feed : AirFeed} {applied : List AirMsg} (draws : Draws feed applied)
    (now : Nat) : Draws (feed.expireScan now) applied := by
  rcases feed.expireScan_cases now with same | ⟨m, lost⟩
  · rw [same]
    exact draws
  · rw [lost]
    exact draws.setScan now _

/-- What every step keeps: the drawing is of what was applied, the busy state is timed, and every
message was applied, waits or was dropped, an answer never the last. -/
structure Sound (w : AirWindow) : Prop where
  updated : w.updatedNs ≤ w.clockNs
  timed : w.feed.Timed w.clockNs
  ahead : ∀ deadline, w.feed.scanDeadline = some deadline → w.updatedNs < deadline
  draws : Draws w.feed w.applied
  kept : w.delivered.Sublist w.offered
  counted : w.delivered.length + w.dropped = w.offered.length
  answers : (w.delivered.filterMap AirMsg.scan?).Perm (w.askers.filterMap Asker.sent?)
  unlost : w.offered.filterMap AirMsg.scan? = w.delivered.filterMap AirMsg.scan?

theorem sound_opening : Sound opening where
  updated := Nat.le_refl _
  timed := ⟨rfl, fun d same => by cases same⟩
  ahead := fun d same => by cases same
  draws := ⟨rfl, rfl, rfl, rfl, rfl⟩
  kept := List.Sublist.refl _
  counted := rfl
  answers := List.Perm.refl _
  unlost := rfl

/-- A change of the scan's state at the present moment, an answer to no thread. -/
theorem Sound.setScan (sound : Sound w) (state : ScanState) (askers : List Asker)
    (sent : askers.filterMap Asker.sent? = w.askers.filterMap Asker.sent?) :
    Sound { w with feed := w.feed.setScan w.clockNs state, askers := askers } := by
  refine ⟨sound.updated, AirFeed.timed_setScan _ _ _, ?_, sound.draws.setScan _ _, sound.kept,
    sound.counted, ?_, sound.unlost⟩
  · intro d same
    have early := sound.updated
    simp only [AirFeed.setScan] at same
    split at same
    next =>
      cases same
      have wait : 0 < scanBusyTimeoutNs := by decide
      change w.updatedNs < w.clockNs + scanBusyTimeoutNs
      omega
    next => cases same
  · rw [sent]
    exact sound.answers

/-- A message that fits is the last one delivered. -/
theorem Sound.deliver (sound : Sound w) (m : AirMsg) (askers : List Asker)
    (sent : (askers.filterMap Asker.sent?).Perm
      (w.askers.filterMap Asker.sent? ++ m.scan?.toList)) :
    Sound { w with
      askers := askers, channel := w.channel ++ [m], offered := w.offered ++ [m] } := by
  have more : w.applied ++ w.batch ++ (w.channel ++ [m]) = w.delivered ++ [m] :=
    (List.append_assoc _ _ _).symm
  have tail : [m].filterMap AirMsg.scan? = m.scan?.toList := by
    cases given : m.scan? with
    | none => rw [List.filterMap_cons_none given]; rfl
    | some s => rw [List.filterMap_cons_some given]; rfl
  refine ⟨sound.updated, sound.timed, sound.ahead, sound.draws, ?_, ?_, ?_, ?_⟩
  · change (w.applied ++ w.batch ++ (w.channel ++ [m])).Sublist (w.offered ++ [m])
    rw [more]
    exact sound.kept.append (List.Sublist.refl _)
  · change (w.applied ++ w.batch ++ (w.channel ++ [m])).length + w.dropped =
      (w.offered ++ [m]).length
    have counted := sound.counted
    rw [more, List.length_append, List.length_append]
    omega
  · change ((w.applied ++ w.batch ++ (w.channel ++ [m])).filterMap AirMsg.scan?).Perm
      (askers.filterMap Asker.sent?)
    rw [more, List.filterMap_append, tail]
    exact (sound.answers.append_right _).trans sent.symm
  · change (w.offered ++ [m]).filterMap AirMsg.scan? =
      (w.applied ++ w.batch ++ (w.channel ++ [m])).filterMap AirMsg.scan?
    rw [more, List.filterMap_append, List.filterMap_append, sound.unlost]

theorem Sound.move (sound : Sound w) (moved : Move w label w') : Sound w' := by
  cases moved with
  | wait ns =>
    have early := sound.updated
    exact ⟨by change w.updatedNs ≤ w.clockNs + ns; omega,
      sound.timed.later (Nat.le_add_right _ _), sound.ahead, sound.draws, sound.kept, sound.counted,
      sound.answers, sound.unlost⟩
  | press offered =>
    refine sound.setScan _ _ ?_
    rw [List.filterMap_append]
    exact List.append_nil _
  | unspawned e offered => exact (sound.setScan .asking w.askers rfl).setScan _ w.askers rfl
  | answer a waits =>
    have same := sent_set_none (b := .answered a.state) waits rfl rfl
    refine ⟨sound.updated, sound.timed, sound.ahead, sound.draws, sound.kept, sound.counted, ?_,
      sound.unlost⟩
    change (w.delivered.filterMap AirMsg.scan?).Perm ((w.askers.set _ _).filterMap Asker.sent?)
    rw [same]
    exact sound.answers
  | @send k state holds => exact sound.deliver (.scan state) _ (sent_set_some holds rfl)
  | @deliver m frame =>
    refine sound.deliver m w.askers ?_
    rw [frame]
    exact List.Perm.of_eq (List.append_nil _).symm
  | @drop m frame full =>
    have counted := sound.counted
    have unlost : (w.offered ++ [m]).filterMap AirMsg.scan? = w.offered.filterMap AirMsg.scan? := by
      rw [List.filterMap_append, List.filterMap_cons_none frame]
      exact List.append_nil _
    refine ⟨sound.updated, sound.timed, sound.ahead, sound.draws,
      sound.kept.trans (List.sublist_append_left _ _), ?_, sound.answers, unlost.trans sound.unlost⟩
    change w.delivered.length + (w.dropped + 1) = (w.offered ++ [m]).length
    rw [List.length_append, List.length_singleton]
    omega
  | @receive m rest front =>
    have same : w.applied ++ (w.batch ++ [m]) ++ rest = w.delivered := by
      rw [delivered, front]
      simp only [List.append_assoc, List.singleton_append]
    refine ⟨sound.updated, sound.timed, sound.ahead, sound.draws, ?_, ?_, ?_, ?_⟩
    · exact (congrArg (List.Sublist · w.offered) same).mpr sound.kept
    · exact (congrArg (fun l => l.length + w.dropped) same).trans sound.counted
    · exact (List.Perm.of_eq (congrArg (List.filterMap AirMsg.scan?) same)).trans sound.answers
    · exact sound.unlost.trans (congrArg (List.filterMap AirMsg.scan?) same.symm)
  | poll =>
    exact ⟨sound.updated, sound.timed, sound.ahead, sound.draws, sound.kept, sound.counted,
      sound.answers, sound.unlost⟩
  | update =>
    have timed := sound.timed.foldl w.batch
    obtain ⟨after, ahead⟩ := timed.expireScan
    have same : w.applied ++ w.batch ++ [] ++ w.channel = w.delivered := by
      rw [List.append_nil, delivered]
    refine ⟨Nat.le_refl _, after, ahead, (sound.draws.foldl _ _).expireScan _, ?_, ?_, ?_, ?_⟩
    · exact (congrArg (List.Sublist · w.offered) same).mpr sound.kept
    · exact (congrArg (fun l => l.length + w.dropped) same).trans sound.counted
    · exact (List.Perm.of_eq (congrArg (List.filterMap AirMsg.scan?) same)).trans sound.answers
    · exact sound.unlost.trans (congrArg (List.filterMap AirMsg.scan?) same.symm)

theorem sound_run {labels : List Label} (ran : runSteps step opening labels = some w) : Sound w :=
  runSteps_invariant (fun _ _ _ stepped sound => sound.move (step_move stepped)) ran sound_opening

/-- Every press was answered, and the feed had every answer. -/
structure Settled (w : AirWindow) : Prop where
  askers : ∀ a ∈ w.askers, ∃ state, a = .sent state
  waiting : ∀ m ∈ w.batch ++ w.channel, m.scan? = none

/-- A deadline, where there is one, is not past an instant. -/
def DueBy (t : Nat) (feed : AirFeed) : Prop := ∀ d, feed.scanDeadline = some d → d ≤ t

theorem dueBy_apply {t now : Nat} {feed : AirFeed} {m : AirMsg} (frame : m.scan? = none)
    (due : DueBy t feed) : DueBy t (feed.apply now m) := by
  cases m with
  | frame f =>
    cases f with
    | event e =>
      cases e with
      | air a =>
        unfold AirFeed.apply
        dsimp only
        split
        next =>
          intro d same
          cases same
        next => exact due
      | _ => exact due
    | _ => exact due
  | scan state => cases frame
  | _ => exact due

theorem dueBy_foldl {t now : Nat} {feed : AirFeed} {batch : List AirMsg}
    (frames : ∀ m ∈ batch, m.scan? = none) (due : DueBy t feed) :
    DueBy t (batch.foldl (AirFeed.apply now) feed) := by
  induction batch generalizing feed with
  | nil => exact due
  | cons m batch ih =>
    have first : DueBy t (feed.apply now m) := dueBy_apply (frames m List.mem_cons_self) due
    exact ih (fun m' mem => frames m' (List.mem_cons_of_mem _ mem)) first

theorem dueBy_expireScan {t now : Nat} {feed : AirFeed} (due : DueBy t feed) :
    DueBy t (feed.expireScan now) := by
  rcases feed.expireScan_cases now with same | ⟨m, lost⟩
  · rw [same]
    exact due
  · rw [lost]
    intro d same
    cases same

/-- Without a press nothing turns a settled window busy, nor moves its deadline on. -/
theorem Move.settled {t : Nat} (moved : Move w label w') (unpressed : ∀ f, label ≠ .press f)
    (settled : Settled w) (due : DueBy t w.feed) : Settled w' ∧ DueBy t w'.feed := by
  cases moved with
  | wait ns => exact ⟨⟨settled.askers, settled.waiting⟩, due⟩
  | press offered => exact absurd rfl (unpressed none)
  | unspawned e offered => exact absurd rfl (unpressed (some e))
  | answer a waits =>
    obtain ⟨state, same⟩ := settled.askers _ (List.mem_of_getElem? waits)
    cases same
  | send holds =>
    obtain ⟨state, same⟩ := settled.askers _ (List.mem_of_getElem? holds)
    cases same
  | @deliver m frame =>
    refine ⟨⟨settled.askers, fun m' mem => ?_⟩, due⟩
    rw [← List.append_assoc] at mem
    rcases List.mem_append.mp mem with old | new
    · exact settled.waiting m' old
    · rw [List.mem_singleton.mp new]
      exact frame
  | drop frame full => exact ⟨⟨settled.askers, settled.waiting⟩, due⟩
  | @receive m rest front =>
    refine ⟨⟨settled.askers, fun m' mem => settled.waiting m' ?_⟩, due⟩
    rw [front]
    rw [List.append_assoc] at mem
    exact mem
  | poll => exact ⟨⟨settled.askers, settled.waiting⟩, due⟩
  | update =>
    have frames : ∀ m ∈ w.batch, m.scan? = none := fun m mem =>
      settled.waiting m (List.mem_append_left _ mem)
    refine ⟨⟨settled.askers, fun m mem => ?_⟩, dueBy_expireScan (dueBy_foldl frames due)⟩
    exact settled.waiting m (List.mem_append_right _ mem)

/-- The button of a settled window is free again behind the first update a timeout later. -/
theorem settled_ends {later : List Label} (sound : Sound w) (settled : Settled w)
    (rest : runSteps step w later = some w') (unpressed : ∀ f, .press f ∉ later)
    (late : w.clockNs + scanBusyTimeoutNs ≤ w'.updatedNs) : w'.feed.scan.busy = false := by
  have after : Sound w' := runSteps_invariant
    (fun _ _ _ stepped sound => sound.move (step_move stepped)) rest sound
  have due : DueBy (w.clockNs + scanBusyTimeoutNs) w'.feed := by
    have start : Settled w ∧ DueBy (w.clockNs + scanBusyTimeoutNs) w.feed :=
      ⟨settled, sound.timed.bound⟩
    refine (runSteps_guarded (G := fun _ label => ∀ f, label ≠ .press f)
      (fun u label v stepped plain quiet => (step_move stepped).settled plain quiet.1 quiet.2)
      rest ?_ start).2
    intro past label back u v split _ _ f same
    rw [split, same] at unpressed
    exact unpressed f (List.mem_append_right _ List.mem_cons_self)
  rw [after.timed.busy]
  cases set : w'.feed.scanDeadline with
  | none => rfl
  | some d =>
    have ahead := after.ahead d set
    have bound := due d set
    omega

/-- What the window tells. -/
structure Tells (w : AirWindow) : Prop where
  draws : Draws w.feed w.applied
  current : w.dropped = 0 → w.batch = [] → w.channel = [] → Draws w.feed w.offered
  accounts : w.delivered.Sublist w.offered ∧ w.delivered.length + w.dropped = w.offered.length
  answers : (w.delivered.filterMap AirMsg.scan?).Perm (w.askers.filterMap Asker.sent?)
  busy : w.feed.scan.busy = true → ∃ deadline, w.feed.scanDeadline = some deadline ∧
    w.updatedNs < deadline ∧ deadline ≤ w.clockNs + scanBusyTimeoutNs
  ends : Settled w → ∀ later w', runSteps step w later = some w' → (∀ f, .press f ∉ later) →
    w.clockNs + scanBusyTimeoutNs ≤ w'.updatedNs → w'.feed.scan.busy = false

/-- The air window over every run of its reader, its presses and its drain: what it draws is the
last delivered message that tells of it, of all that were sent if none was dropped; no answer to a
press is lost or told twice, and the button does not stay busy behind the first update a timeout
after the last press was answered. -/
theorem air_feed_tells {labels : List Label} (ran : runSteps step opening labels = some w) :
    Tells w := by
  have sound := sound_run ran
  refine ⟨sound.draws, ?_, ⟨sound.kept, sound.counted⟩, sound.answers, ?_, ?_⟩
  · intro dropped batch channel
    have all : w.delivered = w.applied := by
      rw [delivered, batch, channel, List.append_nil, List.append_nil]
    have counted := sound.counted
    have whole : w.applied = w.offered := by
      rw [← all]
      exact sound.kept.eq_of_length (by omega)
    rw [← whole]
    exact sound.draws
  · intro busy
    rw [sound.timed.busy] at busy
    obtain ⟨deadline, set⟩ := Option.isSome_iff_exists.mp busy
    exact ⟨deadline, set, sound.ahead deadline set, sound.timed.bound deadline set⟩
  · intro settled later w' rest unpressed late
    exact settled_ends sound settled rest unpressed late

/-- A press whose scan the daemon takes on, and no slice. -/
def sliceLost : List Label :=
  [.press none, .answer 0 (.ran true "scanning"), .send 0, .receive, .poll, .update,
    .wait 60000000000, .offer (.frame (.gap ⟨7, 1⟩)), .receive, .poll, .update]

theorem air_feed_tells_sliceLost : ∃ w, runSteps step opening sliceLost = some w ∧
    w.feed.scan.busy = false ∧ w.feed.scanDeadline = none ∧ Draws w.feed w.offered := by
  refine ⟨_, rfl, rfl, rfl, ?_⟩
  have ran : runSteps step opening sliceLost = _ := rfl
  exact (air_feed_tells ran).current rfl rfl rfl

end AirWindow

end NetObserver
