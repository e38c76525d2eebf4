import Mathlib.Data.List.Infix

/-! The sections threads run under the store's connection lock: a query's watchdog, the interrupt
it raises on the connection, and the statement that notices it. -/

namespace NetObserver

/-- What a thread does under the lock: `query_prepared_within`, the other users of `with_conn`, and
the writers, which take the lock outright. -/
inductive StoreSection where
  | queryWithin (budgetNs : Nat)
  | withConn
  | locked
deriving DecidableEq

/-- How a statement ended; `interrupted` is the driver's failure of one that saw the interrupt. -/
inductive StatementEnd where
  | rows
  | error (text : String)
  | interrupted (text : String)
  | panicked (text : String)
deriving DecidableEq

inductive WatchdogPhase where
  | waiting
  | expired
  | fired
  | stoodDown
deriving DecidableEq

structure Watchdog where
  armedNs : Nat
  budgetNs : Nat
  phase : WatchdogPhase
deriving DecidableEq

namespace Watchdog

def deadlineNs (d : Watchdog) : Nat := d.armedNs + d.budgetNs

/-- The watchdog's thread has returned: an interrupt it raised is no longer on its way. -/
def returned (d : Watchdog) : Bool := d.phase == .fired || d.phase == .stoodDown

end Watchdog

inductive StoreAnswer where
  | table
  | duckdb (text : String)
  | interrupted (budgetNs : Nat)
  | panicked (text : String)
deriving DecidableEq

namespace StatementEnd

def isInterrupted : StatementEnd → Bool
  | interrupted _ => true
  | _ => false

def isPanic : StatementEnd → Bool
  | panicked _ => true
  | _ => false

def spelledInterrupt (text : String) : Bool := decide ("INTERRUPT".toList <:+: text.toList)

/-- The result a section hands on: a driver's failure is renamed only where the watchdog fired and
the failure is spelled as an interrupt. -/
def answer (d : Option Watchdog) : StatementEnd → StoreAnswer
  | rows => .table
  | panicked text => .panicked text
  | error text | interrupted text =>
    match d with
    | some d => if d.phase == .fired && spelledInterrupt text then .interrupted d.budgetNs
      else .duckdb text
    | none => .duckdb text

end StatementEnd

/-- Where a thread stands with its section. A query's watchdog goes with it from `arm` on. -/
inductive SectionPhase where
  | arrived
  | poisoned
  | holding
  | armed (d : Watchdog)
  | executing (d : Option Watchdog)
  | ended (d : Option Watchdog) (e : StatementEnd)
  | standingDown (d : Watchdog) (e : StatementEnd)
  | joined (d : Watchdog) (e : StatementEnd)
  | left (d : Option Watchdog) (e : StatementEnd)
deriving DecidableEq

namespace SectionPhase

def watchdog : SectionPhase → Option Watchdog
  | armed d | standingDown d _ | joined d _ => some d
  | executing d | ended d _ | left d _ => d
  | _ => none

def setWatchdog (d : Watchdog) : SectionPhase → SectionPhase
  | armed _ => armed d
  | executing (some _) => executing (some d)
  | ended (some _) e => ended (some d) e
  | standingDown _ e => standingDown d e
  | joined _ e => joined d e
  | left (some _) e => left (some d) e
  | p => p

def holdsLock : SectionPhase → Bool
  | arrived | poisoned | left .. => false
  | _ => true

def outcome : SectionPhase → Option StatementEnd
  | ended _ e | standingDown _ e | joined _ e | left _ e => some e
  | _ => none

/-- The guard is being taken down: its sender is gone. -/
def disarming : SectionPhase → Bool
  | standingDown .. | joined .. | left .. => true
  | _ => false

/-- A phase of a section that goes without a watchdog, and one that goes with it. -/
def unwatched : SectionPhase → Bool
  | executing d | ended d _ | left d _ => d.isNone
  | _ => false

section

variable {p : SectionPhase} {d d' : Watchdog}

theorem watchdog_setWatchdog (watching : p.watchdog = some d) :
    (p.setWatchdog d').watchdog = some d' := by
  match p, watching with
  | armed _, _ | executing (some _), _ | ended (some _) _, _ | standingDown _ _, _ | joined _ _, _
  | left (some _) _, _ => rfl

@[simp] theorem outcome_setWatchdog : (p.setWatchdog d').outcome = p.outcome := by
  unfold setWatchdog
  split <;> rfl

@[simp] theorem holdsLock_setWatchdog : (p.setWatchdog d').holdsLock = p.holdsLock := by
  unfold setWatchdog
  split <;> rfl

@[simp] theorem disarming_setWatchdog : (p.setWatchdog d').disarming = p.disarming := by
  unfold setWatchdog
  split <;> rfl

@[simp] theorem unwatched_setWatchdog : (p.setWatchdog d').unwatched = p.unwatched := by
  unfold setWatchdog
  split <;> rfl

theorem setWatchdog_eq_joined {e : StatementEnd} {w : Watchdog}
    (joined_ : p.setWatchdog d' = joined w e) : ∃ old, p = joined old e := by
  match p, joined_ with
  | joined old _, eq =>
    cases eq
    exact ⟨old, rfl⟩

theorem setWatchdog_eq_executing {o : Option Watchdog}
    (executing_ : p.setWatchdog d' = executing o) : ∃ old, p = executing old := by
  match p, executing_ with
  | executing old, _ => exact ⟨old, rfl⟩

end

end SectionPhase

structure SectionThread where
  work : StoreSection
  phase : SectionPhase
deriving DecidableEq

/-- The connection: who holds its lock, whether that is poisoned, whose watchdog raised the
interrupt it still carries, and how each statement ended. -/
structure StoreConn where
  lock : Option Nat
  poisoned : Bool
  interrupted : Option Nat
  ends : List (Nat × StatementEnd)
deriving DecidableEq

/-- The moves of a thread, of the engine on its statement, and of its watchdog. -/
inductive SectionMove where
  | lock
  | arm
  | refuse (text : String)
  | execute
  | finish (e : StatementEnd)
  | notice (text : String)
  | again
  | standDown
  | join
  | unlock
  | expire
  | fire
  | giveUp
deriving DecidableEq

namespace SectionThread

/-- The watchdog a section's statement runs under, once the section may prepare one. -/
def ready (t : SectionThread) : Option (Option Watchdog) :=
  match t.work, t.phase with
  | .queryWithin _, .armed d => some (some d)
  | .queryWithin _, _ => none
  | _, .holding => some none
  | _, _ => none

def endWith (c : StoreConn) (k : Nat) (t : SectionThread) (d : Option Watchdog) (e : StatementEnd) :
    StoreConn × SectionThread :=
  ({ c with ends := c.ends ++ [(k, e)] }, { t with phase := .ended d e })

def move (clockNs k : Nat) (c : StoreConn) (t : SectionThread) :
    SectionMove → Option (StoreConn × SectionThread)
  | .lock =>
    match t.phase, c.lock with
    | .arrived, none =>
      if c.poisoned then some (c, { t with phase := .poisoned })
      else some ({ c with lock := some k }, { t with phase := .holding })
    | _, _ => none
  | .arm =>
    match t.work, t.phase with
    | .queryWithin budgetNs, .holding =>
      some (c, { t with phase := .armed ⟨clockNs, budgetNs, .waiting⟩ })
    | _, _ => none
  -- `prepare` fails on the statement's text
  | .refuse text => t.ready.map fun d => t.endWith c k d (.error text)
  -- the engine clears an interrupt left behind before a statement runs
  | .execute =>
    t.ready.map fun d => ({ c with interrupted := none }, { t with phase := .executing d })
  | .finish e =>
    match t.phase with
    | .executing d => if e.isInterrupted then none else some (t.endWith c k d e)
    | _ => none
  | .notice text =>
    match t.phase with
    | .executing d =>
      if c.interrupted.isSome && StatementEnd.spelledInterrupt text then
        some (t.endWith c k d (.interrupted text))
      else none
    | _ => none
  -- a section without a deadline may run one statement after another
  | .again =>
    match t.phase with
    | .ended none e => if e.isPanic then none else some (c, { t with phase := .holding })
    | _ => none
  | .standDown =>
    match t.phase with
    | .ended (some d) e => some (c, { t with phase := .standingDown d e })
    | _ => none
  | .join =>
    match t.phase with
    | .standingDown d e => if d.returned then some (c, { t with phase := .joined d e }) else none
    | _ => none
  -- a panic is caught inside the guard, except in a writer's section
  | .unlock =>
    match t.phase with
    | .joined d e => some ({ c with lock := none }, { t with phase := .left (some d) e })
    | .ended none e =>
      some ({ c with lock := none, poisoned := c.poisoned || (t.work == .locked && e.isPanic) },
        { t with phase := .left none e })
    | _ => none
  | .expire =>
    t.phase.watchdog.bind fun d =>
      if d.phase == .waiting && decide (d.deadlineNs ≤ clockNs) then
        some (c, { t with phase := t.phase.setWatchdog { d with phase := .expired } })
      else none
  | .fire =>
    t.phase.watchdog.bind fun d =>
      if d.phase == .expired then
        some ({ c with interrupted := some k },
          { t with phase := t.phase.setWatchdog { d with phase := .fired } })
      else none
  -- the sender was dropped before the deadline
  | .giveUp =>
    match t.phase with
    | .standingDown d e =>
      if d.phase == .waiting then
        some (c, { t with phase := .standingDown { d with phase := .stoodDown } e })
      else none
    | _ => none

/-- What a move finds and leaves. -/
inductive Moved (clockNs k : Nat) (c : StoreConn) (t : SectionThread) :
    StoreConn → SectionThread → Prop where
  | turnedAway (arrived : t.phase = .arrived) : Moved clockNs k c t c { t with phase := .poisoned }
  | locked (arrived : t.phase = .arrived) (free : c.lock = none) :
      Moved clockNs k c t { c with lock := some k } { t with phase := .holding }
  | armed {budgetNs : Nat} (work : t.work = .queryWithin budgetNs) (holding : t.phase = .holding) :
      Moved clockNs k c t c { t with phase := .armed ⟨clockNs, budgetNs, .waiting⟩ }
  | refused {d : Option Watchdog} (text : String) (ready : t.ready = some d) :
      Moved clockNs k c t (t.endWith c k d (.error text)).1 (t.endWith c k d (.error text)).2
  | executed {d : Option Watchdog} (ready : t.ready = some d) :
      Moved clockNs k c t { c with interrupted := none } { t with phase := .executing d }
  | finished {d : Option Watchdog} {e : StatementEnd} (executing : t.phase = .executing d)
      (byItself : e.isInterrupted = false) :
      Moved clockNs k c t (t.endWith c k d e).1 (t.endWith c k d e).2
  | noticed {d : Option Watchdog} {text : String} (executing : t.phase = .executing d)
      (raised : c.interrupted.isSome = true) (spelled : StatementEnd.spelledInterrupt text = true) :
      Moved clockNs k c t (t.endWith c k d (.interrupted text)).1
        (t.endWith c k d (.interrupted text)).2
  | again {e : StatementEnd} (ended : t.phase = .ended none e) :
      Moved clockNs k c t c { t with phase := .holding }
  | stoodDown {d : Watchdog} {e : StatementEnd} (ended : t.phase = .ended (some d) e) :
      Moved clockNs k c t c { t with phase := .standingDown d e }
  | joined {d : Watchdog} {e : StatementEnd} (standing : t.phase = .standingDown d e)
      (returned : d.returned = true) : Moved clockNs k c t c { t with phase := .joined d e }
  | unlocked {d : Watchdog} {e : StatementEnd} (joined : t.phase = .joined d e) :
      Moved clockNs k c t { c with lock := none } { t with phase := .left (some d) e }
  | unlockedPlain {e : StatementEnd} (ended : t.phase = .ended none e) :
      Moved clockNs k c t
        { c with lock := none, poisoned := c.poisoned || (t.work == .locked && e.isPanic) }
        { t with phase := .left none e }
  | expired {d : Watchdog} (watching : t.phase.watchdog = some d) (waiting : d.phase = .waiting)
      (due : d.deadlineNs ≤ clockNs) :
      Moved clockNs k c t c { t with phase := t.phase.setWatchdog { d with phase := .expired } }
  | fired {d : Watchdog} (watching : t.phase.watchdog = some d) (expired : d.phase = .expired) :
      Moved clockNs k c t { c with interrupted := some k }
        { t with phase := t.phase.setWatchdog { d with phase := .fired } }
  | gaveUp {d : Watchdog} {e : StatementEnd} (standing : t.phase = .standingDown d e)
      (waiting : d.phase = .waiting) :
      Moved clockNs k c t c { t with phase := .standingDown { d with phase := .stoodDown } e }

theorem move_moved {clockNs k : Nat} {c c' : StoreConn} {t t' : SectionThread} {m : SectionMove}
    (moved : t.move clockNs k c m = some (c', t')) : Moved clockNs k c t c' t' := by
  cases m with
  | lock =>
    simp only [move] at moved
    split at moved
    next arrived free =>
      split at moved
      · cases moved
        exact .turnedAway arrived
      · cases moved
        exact .locked arrived free
    next => cases moved
  | arm =>
    simp only [move] at moved
    split at moved
    next work holding =>
      cases moved
      exact .armed work holding
    next => cases moved
  | refuse text =>
    obtain ⟨d, ready, result⟩ := Option.map_eq_some_iff.mp moved
    cases result
    exact .refused text ready
  | execute =>
    obtain ⟨d, ready, result⟩ := Option.map_eq_some_iff.mp moved
    cases result
    exact .executed ready
  | finish e =>
    simp only [move] at moved
    split at moved
    next executing =>
      split at moved
      next => cases moved
      next byItself =>
        cases moved
        exact .finished executing (Bool.eq_false_iff.mpr byItself)
    next => cases moved
  | notice text =>
    simp only [move] at moved
    split at moved
    next executing =>
      split at moved
      next seen =>
        obtain ⟨raised, spelled⟩ := Bool.and_eq_true_iff.mp seen
        cases moved
        exact .noticed executing raised spelled
      next => cases moved
    next => cases moved
  | again =>
    simp only [move] at moved
    split at moved
    next ended =>
      split at moved
      next => cases moved
      next =>
        cases moved
        exact .again ended
    next => cases moved
  | standDown =>
    simp only [move] at moved
    split at moved
    next ended =>
      cases moved
      exact .stoodDown ended
    next => cases moved
  | join =>
    simp only [move] at moved
    split at moved
    next standing =>
      split at moved
      next returned =>
        cases moved
        exact .joined standing returned
      next => cases moved
    next => cases moved
  | unlock =>
    simp only [move] at moved
    split at moved
    next joined =>
      cases moved
      exact .unlocked joined
    next ended =>
      cases moved
      exact .unlockedPlain ended
    next => cases moved
  | expire =>
    obtain ⟨d, watching, result⟩ := Option.bind_eq_some_iff.mp moved
    split at result
    next now =>
      obtain ⟨waiting, due⟩ := Bool.and_eq_true_iff.mp now
      cases result
      exact .expired watching (eq_of_beq waiting) (of_decide_eq_true due)
    next => cases result
  | fire =>
    obtain ⟨d, watching, result⟩ := Option.bind_eq_some_iff.mp moved
    split at result
    next expired =>
      cases result
      exact .fired watching (eq_of_beq expired)
    next => cases result
  | giveUp =>
    simp only [move] at moved
    split at moved
    next standing =>
      split at moved
      next waiting =>
        cases moved
        exact .gaveUp standing (eq_of_beq waiting)
      next => cases moved
    next => cases moved

end SectionThread

structure StoreThreads where
  clockNs : Nat
  conn : StoreConn
  threads : List SectionThread

inductive StoreStep where
  | arrive (work : StoreSection)
  | pass (ns : Nat)
  | thread (k : Nat) (m : SectionMove)
deriving DecidableEq

namespace StoreThreads

def start : StoreThreads := ⟨0, ⟨none, false, none, []⟩, []⟩

def step (w : StoreThreads) : StoreStep → Option StoreThreads
  | .arrive work => some { w with threads := w.threads ++ [⟨work, .arrived⟩] }
  | .pass ns => some { w with clockNs := w.clockNs + ns }
  | .thread k m =>
    w.threads[k]?.bind fun t =>
      (t.move w.clockNs k w.conn m).map fun r =>
        { w with conn := r.1, threads := w.threads.set k r.2 }

end StoreThreads

namespace SectionThread

open SectionPhase

section

variable {clockNs k : Nat} {c c' : StoreConn} {t t' : SectionThread} {m : SectionMove}

theorem ready_cases {d : Option Watchdog} (ready : t.ready = some d) :
    (∃ budgetNs w, t.work = .queryWithin budgetNs ∧ t.phase = .armed w ∧ d = some w) ∨
      t.phase = .holding ∧ d = none ∧ ∀ budgetNs, t.work ≠ .queryWithin budgetNs := by
  unfold SectionThread.ready at ready
  split at ready
  next work phase =>
    cases ready
    exact .inl ⟨_, _, work, phase, rfl⟩
  next => cases ready
  next phase plain =>
    cases ready
    exact .inr ⟨phase, rfl, plain⟩
  next => cases ready

/-- A section ready for a statement has ended none, and its guard is up. -/
theorem ready_phase {d : Option Watchdog} (ready : t.ready = some d) :
    t.phase.watchdog = d ∧ t.phase.outcome = none ∧ t.phase.disarming = false ∧
      t.phase.holdsLock = true := by
  rcases ready_cases ready with ⟨_, w, _, phase, rfl⟩ | ⟨phase, rfl, _⟩
  · rw [phase]
    exact ⟨rfl, rfl, rfl, rfl⟩
  · rw [phase]
    exact ⟨rfl, rfl, rfl, rfl⟩

/-- How a thread's section, its watchdog and the clock agree. -/
structure Fits (clockNs : Nat) (t : SectionThread) : Prop where
  query : ∀ budgetNs, t.work = .queryWithin budgetNs → t.phase.unwatched = false ∧
    ∀ d, t.phase.watchdog = some d → d.budgetNs = budgetNs
  plain : (∀ budgetNs, t.work ≠ .queryWithin budgetNs) → t.phase.watchdog = none
  due : ∀ d, t.phase.watchdog = some d → d.phase = .expired ∨ d.phase = .fired →
    d.deadlineNs ≤ clockNs
  joined : ∀ d e, t.phase = .joined d e → d.returned = true
  settled : t.phase.holdsLock = false → ∀ d, t.phase.watchdog = some d → d.returned = true
  standing : ∀ d, t.phase.watchdog = some d → d.phase = .stoodDown → t.phase.disarming = true
  noticed : ∀ text, t.phase.outcome = some (.interrupted text) →
    StatementEnd.spelledInterrupt text = true ∧
      ∃ d, t.phase.watchdog = some d ∧ d.phase = .fired

theorem Fits.later {clockNs' : Nat} (fits : t.Fits clockNs) (later : clockNs ≤ clockNs') :
    t.Fits clockNs' :=
  { fits with due := fun d watching past => Nat.le_trans (fits.due d watching past) later }

theorem fits_arrived (clockNs : Nat) (work : StoreSection) :
    (SectionThread.mk work .arrived).Fits clockNs where
  query := fun _ _ => ⟨rfl, fun _ watching => nomatch watching⟩
  plain := fun _ => rfl
  due := fun _ watching => nomatch watching
  joined := fun _ _ eq => nomatch eq
  settled := fun _ _ watching => nomatch watching
  standing := fun _ watching => nomatch watching
  noticed := fun _ eq => nomatch eq

/-- A thread moves on under the watchdog it has. -/
theorem Fits.rephase (fits : t.Fits clockNs) {p : SectionPhase}
    (same : p.watchdog = t.phase.watchdog)
    (watched : p.unwatched = true → ∀ budgetNs, t.work ≠ .queryWithin budgetNs)
    (returned : (∃ d e, p = .joined d e) ∨ p.holdsLock = false →
      ∀ d, p.watchdog = some d → d.returned = true)
    (disarming : t.phase.disarming = true → p.disarming = true)
    (noticed : ∀ text, p.outcome = some (.interrupted text) →
      StatementEnd.spelledInterrupt text = true ∧ ∃ d, p.watchdog = some d ∧ d.phase = .fired) :
    SectionThread.Fits clockNs { t with phase := p } where
  query := fun budgetNs work => by
    refine ⟨?_, fun d watching => (fits.query budgetNs work).2 d (same.symm.trans watching)⟩
    cases alone : p.unwatched with
    | false => rfl
    | true => exact absurd work (watched alone budgetNs)
  plain := fun plain => same.trans (fits.plain plain)
  due := fun d watching => fits.due d (same.symm.trans watching)
  joined := fun d e eq => returned (.inl ⟨d, e, eq⟩) d (by rw [show p = .joined d e from eq]; rfl)
  settled := fun free d watching => returned (.inr free) d watching
  standing := fun d watching stood =>
    disarming (fits.standing d (same.symm.trans watching) stood)
  noticed := noticed

/-- A watchdog moves on while its thread holds the lock and has not joined it. -/
theorem Fits.rewatch (fits : t.Fits clockNs) {d : Watchdog} (watching : t.phase.watchdog = some d)
    (unreturned : d.returned = false) {phase : WatchdogPhase}
    (due : phase = .expired ∨ phase = .fired → d.deadlineNs ≤ clockNs)
    (standing : phase = .stoodDown → t.phase.disarming = true) :
    SectionThread.Fits clockNs
      { t with phase := t.phase.setWatchdog { d with phase := phase } } := by
  have now : (t.phase.setWatchdog { d with phase := phase }).watchdog =
      some { d with phase := phase } := watchdog_setWatchdog watching
  have running : t.phase.holdsLock = true := by
    cases free : t.phase.holdsLock with
    | true => rfl
    | false => exact absurd (fits.settled free d watching) (by rw [unreturned]; decide)
  refine ⟨fun budgetNs work => ?_, fun plain => ?_, fun e there past => ?_, fun w e eq => ?_,
    fun free => ?_, fun e there stood => ?_, fun text told => ?_⟩
  · obtain ⟨watched, budget⟩ := fits.query budgetNs work
    refine ⟨(unwatched_setWatchdog).trans watched, fun e there => ?_⟩
    cases now.symm.trans there
    exact budget d watching
  · exact absurd ((fits.plain plain).symm.trans watching) (by simp)
  · cases now.symm.trans there
    exact due past
  · obtain ⟨old, before⟩ := setWatchdog_eq_joined eq
    have same : t.phase.watchdog = some old := by rw [before]; rfl
    cases watching.symm.trans same
    exact absurd (fits.joined d e before) (by rw [unreturned]; decide)
  · exact absurd ((holdsLock_setWatchdog).symm.trans free) (by rw [running]; decide)
  · cases now.symm.trans there
    exact (disarming_setWatchdog).trans (standing stood)
  · obtain ⟨spelled, w, there, fired⟩ :=
      fits.noticed text ((outcome_setWatchdog).symm.trans told)
    cases watching.symm.trans there
    rw [Watchdog.returned, fired] at unreturned
    cases unreturned

theorem Moved.work (moved : Moved clockNs k c t c' t') : t'.work = t.work := by
  cases moved <;> rfl

/-- A move keeps the fit, where an interrupt the statement notices is of its own watchdog. -/
theorem Fits.moved (fits : t.Fits clockNs) (moved : Moved clockNs k c t c' t')
    (own : ∀ d, t.phase = .executing d → c.interrupted.isSome = true →
      ∃ w, d = some w ∧ w.phase = .fired) : t'.Fits clockNs := by
  have prepared {d : Option Watchdog} (ready : t.ready = some d) (alone : d.isNone = true)
      (budgetNs : Nat) : t.work ≠ .queryWithin budgetNs := by
    rw [Option.isNone_iff_eq_none] at alone
    rcases ready_cases ready with ⟨_, w, _, _, there⟩ | ⟨_, _, plain⟩
    · exact absurd (there.symm.trans alone) (by simp)
    · exact plain budgetNs
  have ended {d : Option Watchdog} (executing : t.phase = .executing d) (alone : d.isNone = true)
      (budgetNs : Nat) : t.work ≠ .queryWithin budgetNs := by
    intro work
    have watched := (fits.query budgetNs work).1
    rw [executing, SectionPhase.unwatched, alone] at watched
    cases watched
  have closed {e : StatementEnd} (stopped : t.phase = .ended none e) (budgetNs : Nat) :
      t.work ≠ .queryWithin budgetNs := by
    intro work
    have watched := (fits.query budgetNs work).1
    rw [stopped] at watched
    cases watched
  cases moved with
  | turnedAway arrived =>
    refine fits.rephase (by rw [arrived]; rfl) (fun alone => nomatch alone)
      (fun _ d watching => nomatch watching) (fun taken => ?_) (fun _ told => nomatch told)
    rw [arrived] at taken
    cases taken
  | locked arrived free =>
    refine fits.rephase (by rw [arrived]; rfl) (fun alone => nomatch alone)
      (fun _ d watching => nomatch watching) (fun taken => ?_) (fun _ told => nomatch told)
    rw [arrived] at taken
    cases taken
  | armed work holding =>
    refine ⟨fun budgetNs same => ⟨rfl, fun d there => ?_⟩, fun plain => absurd work (plain _),
      fun d there past => ?_, fun _ _ eq => (nomatch eq), fun free => (nomatch free),
      fun d there stood => ?_, fun _ told => (nomatch told)⟩
    · cases there
      exact StoreSection.queryWithin.inj (work.symm.trans same)
    · cases there
      rcases past with eq | eq <;> cases eq
    · cases there
      cases stood
  | refused text ready =>
    obtain ⟨watching, _, guarded, _⟩ := ready_phase ready
    refine fits.rephase watching.symm (prepared ready) ?_ (fun taken => ?_)
      (fun _ told => nomatch told)
    · rintro (⟨_, _, eq⟩ | free) <;> [cases eq; cases free]
    · rw [guarded] at taken
      cases taken
  | executed ready =>
    obtain ⟨watching, _, guarded, _⟩ := ready_phase ready
    refine fits.rephase watching.symm (prepared ready) ?_ (fun taken => ?_)
      (fun _ told => nomatch told)
    · rintro (⟨_, _, eq⟩ | free) <;> [cases eq; cases free]
    · rw [guarded] at taken
      cases taken
  | finished executing byItself =>
    refine fits.rephase (by rw [executing]; rfl) (ended executing) ?_ (fun taken => ?_)
      (fun text told => ?_)
    · rintro (⟨_, _, eq⟩ | free) <;> [cases eq; cases free]
    · rw [executing] at taken
      cases taken
    · cases Option.some.inj told
      cases byItself
  | noticed executing raised spelled =>
    refine fits.rephase (by rw [executing]; rfl) (ended executing) ?_ (fun taken => ?_)
      (fun text told => ?_)
    · rintro (⟨_, _, eq⟩ | free) <;> [cases eq; cases free]
    · rw [executing] at taken
      cases taken
    · obtain ⟨w, rfl, fired⟩ := own _ executing raised
      cases Option.some.inj told
      exact ⟨spelled, w, rfl, fired⟩
  | again stopped =>
    refine fits.rephase (by rw [stopped]; rfl) (fun alone => nomatch alone)
      (fun _ d watching => nomatch watching) (fun taken => ?_) (fun _ told => nomatch told)
    rw [stopped] at taken
    cases taken
  | stoodDown stopped =>
    refine fits.rephase (by rw [stopped]; rfl) (fun alone => nomatch alone) ?_ (fun _ => rfl)
      (fun text told => ?_)
    · rintro (⟨_, _, eq⟩ | free) <;> [cases eq; cases free]
    · have noticed := fits.noticed text
      rw [stopped] at noticed
      exact noticed told
  | joined standing returned =>
    refine fits.rephase (by rw [standing]; rfl) (fun alone => nomatch alone) (fun _ d there => ?_)
      (fun _ => rfl) (fun text told => ?_)
    · cases there
      exact returned
    · have noticed := fits.noticed text
      rw [standing] at noticed
      exact noticed told
  | unlocked stopped =>
    refine fits.rephase (by rw [stopped]; rfl) (fun alone => nomatch alone) (fun _ d there => ?_)
      (fun _ => rfl) (fun text told => ?_)
    · cases there
      exact fits.joined _ _ stopped
    · have noticed := fits.noticed text
      rw [stopped] at noticed
      exact noticed told
  | unlockedPlain stopped =>
    refine fits.rephase (by rw [stopped]; rfl) (fun _ => closed stopped)
      (fun _ d there => nomatch there)
      (fun _ => rfl) (fun text told => ?_)
    have noticed := fits.noticed text
    rw [stopped] at noticed
    exact noticed told
  | expired watching waiting due =>
    exact fits.rewatch watching (by rw [Watchdog.returned, waiting]; rfl) (fun _ => due)
      (fun stood => nomatch stood)
  | fired watching expired =>
    exact fits.rewatch watching (by rw [Watchdog.returned, expired]; rfl)
      (fun _ => fits.due _ watching (.inl expired)) (fun stood => nomatch stood)
  | @gaveUp d e standing waiting =>
    have watching : t.phase.watchdog = some d := by rw [standing]; rfl
    have unreturned : d.returned = false := by rw [Watchdog.returned, waiting]; rfl
    have rewatched := fits.rewatch watching unreturned
      (fun past => show d.deadlineNs ≤ clockNs by rcases past with eq | eq <;> cases eq)
      (show WatchdogPhase.stoodDown = .stoodDown → t.phase.disarming = true from
        fun _ => by rw [standing]; rfl)
    rw [standing] at rewatched
    exact rewatched

theorem Moved.lock (moved : Moved clockNs k c t c' t') :
    c'.lock = c.lock ∧ t'.phase.holdsLock = t.phase.holdsLock ∨
      (c.lock = none ∧ c'.lock = some k ∧ t'.phase.holdsLock = true) ∨
      t.phase.holdsLock = true ∧ c'.lock = none ∧ t'.phase.holdsLock = false := by
  cases moved with
  | turnedAway arrived => exact .inl ⟨rfl, by rw [arrived]; rfl⟩
  | locked arrived free => exact .inr (.inl ⟨free, rfl, rfl⟩)
  | armed work holding => exact .inl ⟨rfl, by rw [holding]; rfl⟩
  | refused text ready => exact .inl ⟨rfl, (ready_phase ready).2.2.2.symm⟩
  | executed ready => exact .inl ⟨rfl, (ready_phase ready).2.2.2.symm⟩
  | finished executing byItself => exact .inl ⟨rfl, by rw [executing]; rfl⟩
  | noticed executing raised spelled => exact .inl ⟨rfl, by rw [executing]; rfl⟩
  | again stopped => exact .inl ⟨rfl, by rw [stopped]; rfl⟩
  | stoodDown stopped => exact .inl ⟨rfl, by rw [stopped]; rfl⟩
  | joined standing returned => exact .inl ⟨rfl, by rw [standing]; rfl⟩
  | unlocked stopped => exact .inr (.inr ⟨by rw [stopped]; rfl, rfl, rfl⟩)
  | unlockedPlain stopped => exact .inr (.inr ⟨by rw [stopped]; rfl, rfl, rfl⟩)
  | expired watching waiting due => exact .inl ⟨rfl, holdsLock_setWatchdog⟩
  | fired watching expired => exact .inl ⟨rfl, holdsLock_setWatchdog⟩
  | gaveUp standing waiting => exact .inl ⟨rfl, by rw [standing]; rfl⟩

/-- The interrupt is left alone, cleared, or raised by the thread's own watchdog. -/
theorem Moved.interrupted (moved : Moved clockNs k c t c' t') :
    (c'.interrupted = c.interrupted ∧
      ((∃ d, t'.phase = .executing d) → ∃ d, t.phase = .executing d)) ∨
      c'.interrupted = none ∨
      c'.interrupted = some k ∧ (∃ d, t'.phase.watchdog = some d ∧ d.phase = .fired) ∧
        ∃ d, t.phase.watchdog = some d ∧ d.phase = .expired := by
  cases moved with
  | executed ready => exact .inr (.inl rfl)
  | @fired d watching expired =>
    exact .inr (.inr ⟨rfl, ⟨_, watchdog_setWatchdog watching, rfl⟩, d, watching, expired⟩)
  | expired watching waiting due =>
    exact .inl ⟨rfl, fun ⟨_, running⟩ => setWatchdog_eq_executing running⟩
  | turnedAway _ | locked _ _ | armed _ _ | refused _ _ | finished _ _ | noticed _ _ _ | again _
  | stoodDown _ | joined _ _ | unlocked _ | unlockedPlain _ | gaveUp _ _ =>
    exact .inl ⟨rfl, fun ⟨_, running⟩ => nomatch running⟩

theorem Moved.stays_fired (moved : Moved clockNs k c t c' t') {d : Watchdog}
    (watching : t.phase.watchdog = some d) (fired : d.phase = .fired) :
    t'.phase.watchdog = some d := by
  have ready_ {o : Option Watchdog} (ready : t.ready = some o) : o = some d :=
    (ready_phase ready).1.symm.trans watching
  cases moved with
  | turnedAway phase | locked phase _ | armed _ phase | again phase | unlockedPlain phase =>
    rw [phase] at watching
    cases watching
  | refused text ready => exact ready_ ready
  | executed ready => exact ready_ ready
  | finished phase _ | noticed phase _ _ | stoodDown phase | joined phase _ | unlocked phase =>
    rw [phase] at watching
    exact watching
  | expired there waiting due =>
    cases watching.symm.trans there
    cases fired.symm.trans waiting
  | fired there expired =>
    cases watching.symm.trans there
    cases fired.symm.trans expired
  | gaveUp phase waiting =>
    rw [phase] at watching
    cases watching
    cases fired.symm.trans waiting

/-- A statement that ends is recorded, and only a plain section goes on from an end. -/
theorem Moved.ends (moved : Moved clockNs k c t c' t') :
    (c'.ends = c.ends ∧ (t'.phase.outcome = t.phase.outcome ∨
      t'.phase.outcome = none ∧ t.phase.unwatched = true)) ∨
      ∃ e, c'.ends = c.ends ++ [(k, e)] ∧ t'.phase.outcome = some e ∧ t.phase.outcome = none := by
  cases moved with
  | turnedAway phase | locked phase _ | armed _ phase =>
    exact .inl ⟨rfl, .inl (by rw [phase]; rfl)⟩
  | stoodDown phase | joined phase _ | unlocked phase | unlockedPlain phase | gaveUp phase _ =>
    exact .inl ⟨rfl, .inl (by rw [phase]; rfl)⟩
  | executed ready => exact .inl ⟨rfl, .inl (ready_phase ready).2.1.symm⟩
  | again phase => exact .inl ⟨rfl, .inr ⟨rfl, by rw [phase]; rfl⟩⟩
  | refused text ready => exact .inr ⟨_, rfl, rfl, (ready_phase ready).2.1⟩
  | finished phase _ | noticed phase _ _ => exact .inr ⟨_, rfl, rfl, by rw [phase]; rfl⟩
  | expired _ _ _ | fired _ _ => exact .inl ⟨rfl, .inl outcome_setWatchdog⟩

theorem Moved.poisoned (moved : Moved clockNs k c t c' t') (poisoned : c'.poisoned = true) :
    c.poisoned = true ∨ t.work = .locked ∧ ∃ e, t.phase.outcome = some e ∧ e.isPanic = true := by
  cases moved with
  | @unlockedPlain e stopped =>
    rcases Bool.or_eq_true_iff.mp poisoned with before | now
    · exact .inl before
    · obtain ⟨work, panicked⟩ := Bool.and_eq_true_iff.mp now
      exact .inr ⟨eq_of_beq work, e, by rw [stopped]; rfl, panicked⟩
  | turnedAway _ | locked _ _ | armed _ _ | refused _ _ | executed _ | finished _ _ | noticed _ _ _
  | again _ | stoodDown _ | joined _ _ | unlocked _ | expired _ _ _ | fired _ _ | gaveUp _ _ =>
    exact .inl poisoned

end

end SectionThread

end NetObserver
