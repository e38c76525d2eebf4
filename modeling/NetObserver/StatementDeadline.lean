import NetObserver.Runs
import NetObserver.StoreSections

/-! The deadline of a query stopped every interleaving of the sections: whose statement an interrupt
meets, and when a statement past its deadline gives the lock up. -/

namespace NetObserver

namespace StoreThreads

open Runs SectionPhase

structure Guarded (w : StoreThreads) : Prop where
  fits : ∀ (k : Nat) (t : SectionThread), w.threads[k]? = some t → t.Fits w.clockNs
  holder : ∀ (k : Nat) (t : SectionThread), w.threads[k]? = some t →
    (t.phase.holdsLock = true ↔ w.conn.lock = some k)
  seated : ∀ k, w.conn.lock = some k → k < w.threads.length
  raised : ∀ j, w.conn.interrupted = some j → ∃ t d, w.threads[j]? = some t ∧
    t.phase.watchdog = some d ∧ d.phase = .fired
  own : ∀ (k : Nat) (t : SectionThread), w.threads[k]? = some t → (∃ d, t.phase = .executing d) →
    ∀ j, w.conn.interrupted = some j → j = k
  ended : ∀ k e, (k, e) ∈ w.conn.ends → ∃ t, w.threads[k]? = some t ∧
    (∀ budgetNs, t.work = .queryWithin budgetNs → t.phase.outcome = some e) ∧
    (e.isInterrupted = true → ∃ budgetNs, t.work = .queryWithin budgetNs)
  told : ∀ (k : Nat) (t : SectionThread) (e : StatementEnd), w.threads[k]? = some t →
    t.phase.outcome = some e → (k, e) ∈ w.conn.ends
  poisoned : w.conn.poisoned = true → ∃ k t e, w.threads[k]? = some t ∧ t.work = .locked ∧
    (k, e) ∈ w.conn.ends ∧ e.isPanic = true

theorem guarded_start : Guarded start where
  fits := fun _ _ found => nomatch found
  holder := fun _ _ found => nomatch found
  seated := fun _ held => nomatch held
  raised := fun _ raised => nomatch raised
  own := fun _ _ found => nomatch found
  ended := fun _ _ mem => nomatch mem
  told := fun _ _ _ found => nomatch found
  poisoned := fun poisoned => nomatch poisoned

section

variable {w w' : StoreThreads} {k : Nat} {t t' : SectionThread} {c' : StoreConn}

/-- Outside the section that holds the lock no watchdog has an interrupt on its way. -/
theorem Guarded.settled (guarded : w.Guarded) (found : w.threads[k]? = some t)
    (free : w.conn.lock ≠ some k) {d : Watchdog} (watching : t.phase.watchdog = some d) :
    d.returned = true := by
  refine (guarded.fits k t found).settled ?_ d watching
  exact Bool.eq_false_iff.mpr fun holds => free ((guarded.holder k t found).mp holds)

theorem Guarded.noticed_own (guarded : w.Guarded) (found : w.threads[k]? = some t)
    {d : Option Watchdog} (executing : t.phase = .executing d)
    (raised : w.conn.interrupted.isSome = true) : ∃ v, d = some v ∧ v.phase = .fired := by
  obtain ⟨j, by_⟩ := Option.isSome_iff_exists.mp raised
  obtain rfl := guarded.own k t found ⟨d, executing⟩ j by_
  obtain ⟨u, v, same, watching, fired⟩ := guarded.raised j by_
  cases found.symm.trans same
  rw [executing] at watching
  exact ⟨v, watching, fired⟩

theorem Guarded.push (guarded : w.Guarded) (work : StoreSection) :
    Guarded { w with threads := w.threads ++ [⟨work, .arrived⟩] } := by
  have old {j : Nat} {u : SectionThread} (found : (w.threads ++ [⟨work, .arrived⟩])[j]? = some u) :
      w.threads[j]? = some u ∨ u = ⟨work, .arrived⟩ ∧ j = w.threads.length := by
    rw [List.getElem?_append] at found
    split at found
    · exact .inl found
    · obtain ⟨at_, rfl⟩ := List.getElem?_eq_some_iff.mp found
      simp only [List.length_singleton] at at_
      exact .inr ⟨by simp, by omega⟩
  have kept {j : Nat} {u : SectionThread} (found : w.threads[j]? = some u) :
      (w.threads ++ [⟨work, .arrived⟩])[j]? = some u := by
    have inside := (List.getElem?_eq_some_iff.mp found).1
    rw [List.getElem?_append_left inside]
    exact found
  refine ⟨fun j u found => ?_, fun j u found => ?_, fun j held => ?_, fun j raised => ?_,
    fun j u found running => ?_, fun j e mem => ?_, fun j u e found outcome => ?_,
    fun poisoned => ?_⟩
  · rcases old found with before | ⟨rfl, _⟩
    · exact guarded.fits j u before
    · exact SectionThread.fits_arrived _ _
  · rcases old found with before | ⟨rfl, rfl⟩
    · exact guarded.holder j u before
    · exact ⟨fun holds => (by cases holds), fun held => absurd (guarded.seated _ held) (by omega)⟩
  · have inside := guarded.seated j held
    simp only [List.length_append, List.length_singleton]
    omega
  · obtain ⟨u, d, found, rest⟩ := guarded.raised j raised
    exact ⟨u, d, kept found, rest⟩
  · rcases old found with before | ⟨rfl, _⟩
    · exact guarded.own j u before running
    · obtain ⟨d, eq⟩ := running
      cases eq
  · obtain ⟨u, found, rest⟩ := guarded.ended j e mem
    exact ⟨u, kept found, rest⟩
  · rcases old found with before | ⟨rfl, _⟩
    · exact guarded.told j u e before outcome
    · cases outcome
  · obtain ⟨j, u, e, found, rest⟩ := guarded.poisoned poisoned
    exact ⟨j, u, e, kept found, rest⟩

theorem Guarded.thread (guarded : w.Guarded) (found : w.threads[k]? = some t)
    (moved : t.Moved w.clockNs k w.conn c' t') :
    Guarded { w with conn := c', threads := w.threads.set k t' } := by
  have inside := (List.getElem?_eq_some_iff.mp found).1
  have here : (w.threads.set k t')[k]? = some t' := List.getElem?_set_self inside
  have there {j : Nat} {u : SectionThread} (apart : j ≠ k) (other : w.threads[j]? = some u) :
      (w.threads.set k t')[j]? = some u := by
    rw [List.getElem?_set_ne (Ne.symm apart)]
    exact other
  have fits := (guarded.fits k t found).moved moved fun d executing raised =>
    guarded.noticed_own found executing raised
  have holder := guarded.holder k t found
  have grown {j : Nat} {e : StatementEnd} (mem : (j, e) ∈ w.conn.ends) : (j, e) ∈ c'.ends := by
    rcases moved.ends with ⟨same, _⟩ | ⟨new, same, _⟩
    · rw [same]
      exact mem
    · rw [same]
      exact List.mem_append_left _ mem
  refine ⟨fun j u at_ => ?_, fun j u at_ => ?_, fun j held => ?_, fun j raised => ?_,
    fun j u at_ running i raised => ?_, fun j e mem => ?_, fun j u e at_ outcome => ?_,
    fun poisoned => ?_⟩
  · rcases getElem?_set_cases at_ with ⟨rfl, rfl⟩ | ⟨_, other⟩
    · exact fits
    · exact guarded.fits j u other
  · rcases getElem?_set_cases at_ with ⟨rfl, rfl⟩ | ⟨apart, other⟩
    · rcases moved.lock with ⟨lock, holds⟩ | ⟨_, lock, holds⟩ | ⟨_, lock, holds⟩
      · rw [show c'.lock = w.conn.lock from lock, holds]
        exact holder
      · simp [lock, holds]
      · simp [lock, holds]
    · have same := guarded.holder j u other
      rcases moved.lock with ⟨lock, _⟩ | ⟨free, lock, _⟩ | ⟨held, lock, _⟩
      · rw [show c'.lock = w.conn.lock from lock]
        exact same
      · rw [same, free, show c'.lock = some k from lock]
        simp [Ne.symm apart]
      · rw [same, holder.mp held, show c'.lock = none from lock]
        simp [Ne.symm apart]
  · rw [List.length_set]
    rcases moved.lock with ⟨lock, _⟩ | ⟨_, lock, _⟩ | ⟨_, lock, _⟩
    · exact guarded.seated j (lock.symm.trans held)
    · cases lock.symm.trans held
      exact inside
    · cases lock.symm.trans held
  · rcases moved.interrupted with ⟨same, _⟩ | none_ | ⟨own, ⟨d, watching, fired⟩, _⟩
    · obtain ⟨u, d, other, watching, fired⟩ := guarded.raised j (same.symm.trans raised)
      by_cases apart : j = k
      · subst apart
        cases found.symm.trans other
        exact ⟨t', d, here, moved.stays_fired watching fired, fired⟩
      · exact ⟨u, d, there apart other, watching, fired⟩
    · cases none_.symm.trans raised
    · cases own.symm.trans raised
      exact ⟨t', d, here, watching, fired⟩
  · rcases moved.interrupted with ⟨same, before⟩ | none_ | ⟨own, _, d, watching, expired⟩
    · rcases getElem?_set_cases at_ with ⟨rfl, rfl⟩ | ⟨_, other⟩
      · exact guarded.own j t found (before running) i (same.symm.trans raised)
      · exact guarded.own j u other running i (same.symm.trans raised)
    · cases none_.symm.trans raised
    · cases own.symm.trans raised
      rcases getElem?_set_cases at_ with ⟨rfl, rfl⟩ | ⟨apart, other⟩
      · rfl
      · -- a watchdog that can still fire is the lock's holder's, and so is a running statement
        obtain ⟨v, executing⟩ := running
        have mine : w.conn.lock = some j :=
          (guarded.holder j u other).mp (by rw [executing]; rfl)
        have returned := guarded.settled found (fun held => apart (by
          cases mine.symm.trans held
          rfl)) watching
        rw [Watchdog.returned, expired] at returned
        cases returned
  · rcases moved.ends with ⟨same, after⟩ | ⟨new, same, outcome, unended⟩
    · obtain ⟨u, other, query, byOther⟩ := guarded.ended j e (same ▸ mem)
      by_cases apart : j = k
      · subst apart
        cases found.symm.trans other
        refine ⟨t', here, fun budgetNs work => ?_, fun early => ?_⟩
        · have work_ := moved.work.symm.trans work
          rcases after with kept | ⟨_, alone⟩
          · exact kept.trans (query budgetNs work_)
          · have watched := ((guarded.fits j t found).query budgetNs work_).1
            cases alone.symm.trans watched
        · obtain ⟨budgetNs, work⟩ := byOther early
          exact ⟨budgetNs, moved.work.trans work⟩
      · exact ⟨u, there apart other, query, byOther⟩
    · rw [same] at mem
      rcases List.mem_append.mp mem with before | last
      · obtain ⟨u, other, query, byOther⟩ := guarded.ended j e before
        by_cases apart : j = k
        · subst apart
          cases found.symm.trans other
          refine ⟨t', here, fun budgetNs work => ?_, fun early => ?_⟩
          · have ran := query budgetNs (moved.work.symm.trans work)
            cases unended.symm.trans ran
          · obtain ⟨budgetNs, work⟩ := byOther early
            exact ⟨budgetNs, moved.work.trans work⟩
        · exact ⟨u, there apart other, query, byOther⟩
      · cases List.mem_singleton.mp last
        refine ⟨t', here, fun _ _ => outcome, fun early => ?_⟩
        by_contra plain
        cases e with
        | interrupted text =>
          obtain ⟨_, d, watching, _⟩ := fits.noticed text outcome
          cases watching.symm.trans (fits.plain fun budgetNs work => plain ⟨budgetNs, work⟩)
        | _ => cases early
  · rcases getElem?_set_cases at_ with ⟨rfl, rfl⟩ | ⟨_, other⟩
    · rcases moved.ends with ⟨same, kept | ⟨none_, _⟩⟩ | ⟨new, same, ended, _⟩
      · exact grown (guarded.told j t e found (kept.symm.trans outcome))
      · cases none_.symm.trans outcome
      · cases ended.symm.trans outcome
        rw [same]
        exact List.mem_append_right _ (List.mem_singleton_self _)
    · exact grown (guarded.told j u e other outcome)
  · rcases moved.poisoned poisoned with before | ⟨work, e, outcome, panicked⟩
    · obtain ⟨j, u, e, other, writer, mem, panicked⟩ := guarded.poisoned before
      by_cases apart : j = k
      · subst apart
        cases found.symm.trans other
        exact ⟨j, t', e, here, moved.work.trans writer, grown mem, panicked⟩
      · exact ⟨j, u, e, there apart other, writer, grown mem, panicked⟩
    · exact ⟨k, t', e, here, moved.work.trans work, grown (guarded.told k t e found outcome),
        panicked⟩

theorem Guarded.step {label : StoreStep} (guarded : w.Guarded)
    (stepped : w.step label = some w') : w'.Guarded := by
  cases label with
  | arrive work =>
    cases stepped
    exact guarded.push work
  | pass ns =>
    cases stepped
    exact { guarded with
      fits := fun k t found => (guarded.fits k t found).later (Nat.le_add_right _ _) }
  | thread k m =>
    obtain ⟨t, found, result⟩ := Option.bind_eq_some_iff.mp stepped
    obtain ⟨⟨c', t'⟩, moved, rfl⟩ := Option.map_eq_some_iff.mp result
    exact guarded.thread found (SectionThread.move_moved moved)

theorem guarded_run {labels : List StoreStep} (ran : runSteps step start labels = some w) :
    w.Guarded :=
  runSteps_invariant (fun _ _ _ stepped guarded => guarded.step stepped) ran guarded_start

end

/-- An interrupt meets the statement of its own query and no other: every statement that ended by
one ran under a deadline that had passed, and its query says so. -/
structure InterruptsOwn (w : StoreThreads) : Prop where
  ends : ∀ k text, (k, .interrupted text) ∈ w.conn.ends → ∃ t budgetNs d,
    w.threads[k]? = some t ∧ t.work = .queryWithin budgetNs ∧ t.phase.watchdog = some d ∧
    d.phase = .fired ∧ d.armedNs + budgetNs ≤ w.clockNs
  answers : ∀ (k : Nat) (t : SectionThread) (o : Option Watchdog) (text : String),
    w.threads[k]? = some t → t.phase = .left o (.interrupted text) →
    ∃ budgetNs, t.work = .queryWithin budgetNs ∧
      StatementEnd.answer o (.interrupted text) = .interrupted budgetNs
  answered : ∀ (k : Nat) (t : SectionThread) (o : Option Watchdog) (e : StatementEnd)
    (budgetNs : Nat), w.threads[k]? = some t → t.phase = .left o e →
    StatementEnd.answer o e = .interrupted budgetNs → t.work = .queryWithin budgetNs ∧
      ∃ armedNs, armedNs + budgetNs ≤ w.clockNs ∧ o = some ⟨armedNs, budgetNs, .fired⟩
  settled : ∀ (k : Nat) (t : SectionThread) (d : Watchdog), w.threads[k]? = some t →
    t.phase.watchdog = some d → d.returned = true ∨ w.conn.lock = some k
  poisoned : w.conn.poisoned = true → ∃ k t text, w.threads[k]? = some t ∧ t.work = .locked ∧
    (k, .panicked text) ∈ w.conn.ends

theorem answer_interrupted {o : Option Watchdog} {e : StatementEnd} {budgetNs : Nat}
    (answered : e.answer o = .interrupted budgetNs) :
    ∃ d, o = some d ∧ d.phase = .fired ∧ d.budgetNs = budgetNs := by
  unfold StatementEnd.answer at answered
  split at answered
  next => cases answered
  next => cases answered
  all_goals
    split at answered
    next d =>
      split at answered
      next renamed =>
        cases answered
        exact ⟨d, rfl, eq_of_beq (Bool.and_eq_true_iff.mp renamed).1, rfl⟩
      next => cases answered
    next => cases answered

theorem interrupts_reach_their_own {w : StoreThreads} {labels : List StoreStep}
    (ran : runSteps step start labels = some w) : w.InterruptsOwn := by
  have guarded := guarded_run ran
  have queried {k : Nat} {t : SectionThread} {d : Watchdog} (found : w.threads[k]? = some t)
      (watching : t.phase.watchdog = some d) : t.work = .queryWithin d.budgetNs := by
    have fits := guarded.fits k t found
    by_contra plain
    cases work : t.work with
    | queryWithin budgetNs =>
      exact plain (by rw [work, (fits.query budgetNs work).2 d watching])
    | withConn =>
      cases watching.symm.trans (fits.plain fun _ eq => nomatch work.symm.trans eq)
    | locked =>
      cases watching.symm.trans (fits.plain fun _ eq => nomatch work.symm.trans eq)
  refine ⟨fun k text mem => ?_, fun k t o text found left_ => ?_,
    fun k t o e budgetNs found left_ answered => ?_, fun k t d found watching => ?_,
    fun poisoned => ?_⟩
  · obtain ⟨t, found, query, byQuery⟩ := guarded.ended k _ mem
    obtain ⟨budgetNs, work⟩ := byQuery rfl
    have fits := guarded.fits k t found
    obtain ⟨_, d, watching, fired⟩ := fits.noticed text (query budgetNs work)
    have due := fits.due d watching (.inr fired)
    have budget := (fits.query budgetNs work).2 d watching
    rw [Watchdog.deadlineNs, budget] at due
    exact ⟨t, budgetNs, d, found, work, watching, fired, due⟩
  · have fits := guarded.fits k t found
    obtain ⟨spelled, d, watching, fired⟩ := fits.noticed text (by rw [left_]; rfl)
    have work := queried found watching
    rw [left_] at watching
    obtain rfl : o = some d := watching
    exact ⟨d.budgetNs, work, by simp [StatementEnd.answer, fired, spelled]⟩
  · obtain ⟨d, rfl, fired, rfl⟩ := answer_interrupted answered
    have watching : t.phase.watchdog = some d := by rw [left_]; rfl
    have due := (guarded.fits k t found).due d watching (.inr fired)
    refine ⟨queried found watching, d.armedNs, due, ?_⟩
    rw [← fired]
  · by_cases free : w.conn.lock = some k
    · exact .inr free
    · exact .inl (guarded.settled found free watching)
  · obtain ⟨k, t, e, found, work, mem, panicked⟩ := guarded.poisoned poisoned
    match e, panicked with
    | .panicked text, _ => exact ⟨k, t, text, found, work, mem⟩

/-- A query whose interrupt came after its rows, and the writer that takes the lock behind it. -/
def interruptBehindRows : List StoreStep :=
  [.arrive (.queryWithin 30), .arrive .locked, .thread 0 .lock, .thread 0 .arm, .thread 0 .execute,
    .pass 30, .thread 0 .expire, .thread 0 (.finish .rows), .thread 0 .fire, .thread 0 .standDown,
    .thread 0 .join, .thread 0 .unlock, .thread 1 .lock, .thread 1 .execute,
    .thread 1 (.finish .rows), .thread 1 .unlock]

theorem interrupts_reach_their_own_behindRows : ∃ w,
    runSteps step start interruptBehindRows = some w ∧ w.InterruptsOwn :=
  ⟨_, rfl, interrupts_reach_their_own (show runSteps step start interruptBehindRows = _ from rfl)⟩

/-- The lock can be freed of its holder without the statement ending by itself. -/
def FreesLock (k : Nat) (w : StoreThreads) : Prop :=
  ∃ labels w', runSteps step w labels = some w' ∧ (∀ e, .thread k (.finish e) ∉ labels) ∧
    w'.conn.lock ≠ some k

section

variable {w w' : StoreThreads} {k : Nat} {t : SectionThread} {d : Watchdog} {e : StatementEnd}

theorem FreesLock.after {label : StoreStep} (frees : FreesLock k w')
    (stepped : w.step label = some w') (other : ∀ e, label ≠ .thread k (.finish e)) :
    FreesLock k w := by
  obtain ⟨labels, last, ran, unfinished, free⟩ := frees
  have whole := runSteps_cons_eq_some.mpr ⟨w', stepped, ran⟩
  refine ⟨label :: labels, last, whole, fun e mem => ?_, free⟩
  rcases List.mem_cons.mp mem with here | later
  · exact other e here.symm
  · exact unfinished e later

theorem step_thread {m : SectionMove} {r : StoreConn × SectionThread}
    (found : w.threads[k]? = some t) (moved : t.move w.clockNs k w.conn m = some r) :
    w.step (.thread k m) = some { w with conn := r.1, threads := w.threads.set k r.2 } := by
  simp only [step, found, Option.bind_some, moved, Option.map_some]

theorem set_self (found : w.threads[k]? = some t) (t' : SectionThread) :
    (w.threads.set k t')[k]? = some t' :=
  List.getElem?_set_self (List.getElem?_eq_some_iff.mp found).1

theorem freesLock_joined (found : w.threads[k]? = some t) (joined_ : t.phase = .joined d e) :
    FreesLock k w := by
  have moved : t.move w.clockNs k w.conn .unlock =
      some ({ w.conn with lock := none }, { t with phase := .left (some d) e }) := by
    simp only [SectionThread.move, joined_]
  have ran := runSteps_cons_eq_some.mpr ⟨_, step_thread found moved, runSteps_nil step _⟩
  refine ⟨[.thread k .unlock], _, ran, ?_, ?_⟩
  · intro e mem
    cases List.mem_singleton.mp mem
  · intro held
    cases held

theorem freesLock_ended (found : w.threads[k]? = some t) (stopped : t.phase = .ended (some d) e)
    (returned : d.returned = true) : FreesLock k w := by
  have stood : t.move w.clockNs k w.conn .standDown =
      some (w.conn, { t with phase := .standingDown d e }) := by
    simp only [SectionThread.move, stopped]
  have here := set_self found { t with phase := .standingDown d e }
  have joins : SectionThread.move w.clockNs k w.conn { t with phase := .standingDown d e } .join =
      some (w.conn, { t with phase := .joined d e }) := by
    simp only [SectionThread.move, returned, if_true]
  refine FreesLock.after ?_ (step_thread found stood) (fun _ eq => by cases eq)
  refine FreesLock.after ?_ (step_thread here joins) (fun _ eq => by cases eq)
  exact freesLock_joined (set_self here _) rfl

theorem freesLock_raised (found : w.threads[k]? = some t)
    (executing_ : t.phase = .executing (some d)) (fired : d.phase = .fired)
    (raised : w.conn.interrupted = some k) : FreesLock k w := by
  have spelled : StatementEnd.spelledInterrupt "INTERRUPT" = true :=
    decide_eq_true (List.infix_refl _)
  have moved : t.move w.clockNs k w.conn (.notice "INTERRUPT") =
      some (t.endWith w.conn k (some d) (.interrupted "INTERRUPT")) := by
    simp only [SectionThread.move, executing_, raised, spelled, Option.isSome_some, Bool.and_self,
      if_true]
  refine FreesLock.after ?_ (step_thread found moved) (fun _ eq => by cases eq)
  exact freesLock_ended (set_self found _) rfl (by rw [Watchdog.returned, fired]; rfl)

theorem freesLock_expired (found : w.threads[k]? = some t)
    (executing_ : t.phase = .executing (some d)) (expired : d.phase = .expired) :
    FreesLock k w := by
  have moved : t.move w.clockNs k w.conn .fire = some ({ w.conn with interrupted := some k },
      { t with phase := .executing (some { d with phase := .fired }) }) := by
    simp only [SectionThread.move, executing_, watchdog, setWatchdog, Option.bind_some, expired,
      BEq.rfl, if_true]
  refine FreesLock.after ?_ (step_thread found moved) (fun _ eq => by cases eq)
  exact freesLock_raised (set_self found _) rfl rfl rfl

theorem freesLock_waiting (found : w.threads[k]? = some t)
    (executing_ : t.phase = .executing (some d)) (waiting : d.phase = .waiting) :
    FreesLock k w := by
  have moved : t.move (w.clockNs + d.deadlineNs) k w.conn .expire =
      some (w.conn, { t with phase := .executing (some { d with phase := .expired }) }) := by
    have due : decide (d.deadlineNs ≤ w.clockNs + d.deadlineNs) = true := by simp
    simp only [SectionThread.move, executing_, watchdog, setWatchdog, Option.bind_some, waiting,
      BEq.rfl, due, Bool.and_self, if_true]
  have later : w.step (.pass d.deadlineNs) =
      some { w with clockNs := w.clockNs + d.deadlineNs } := rfl
  refine FreesLock.after ?_ later (fun _ eq => by cases eq)
  refine FreesLock.after ?_ (step_thread (w := { w with clockNs := w.clockNs + d.deadlineNs })
    found moved) (fun _ eq => by cases eq)
  exact freesLock_expired (set_self found _) rfl rfl

/-- The watchdog fired before its statement ran: the engine has cleared the interrupt. -/
structure Overrun (k : Nat) (w : StoreThreads) : Prop where
  guarded : w.Guarded
  unnoticed : w.conn.interrupted = none
  running : ∃ t d, w.threads[k]? = some t ∧ t.phase = .executing (some d) ∧ d.phase = .fired

theorem move_executing {clockNs : Nat} {c : StoreConn} {m : SectionMove}
    {r : StoreConn × SectionThread} (executing_ : t.phase = .executing (some d))
    (fired : d.phase = .fired) (unnoticed : c.interrupted = none)
    (moved : t.move clockNs k c m = some r) : ∃ e, m = .finish e := by
  have unready : t.ready = none := by
    unfold SectionThread.ready
    rw [executing_]
    split <;> simp_all
  cases m with
  | finish e => exact ⟨e, rfl⟩
  | refuse text => simp [SectionThread.move, unready] at moved
  | execute => simp [SectionThread.move, unready] at moved
  | expire | fire =>
    simp [SectionThread.move, executing_, watchdog, fired] at moved
  | lock | arm | notice | again | standDown | join | unlock | giveUp =>
    simp [SectionThread.move, executing_, unnoticed] at moved

theorem Overrun.step {label : StoreStep} (overrun : Overrun k w) (stepped : w.step label = some w')
    (other : ∀ e, label ≠ .thread k (.finish e)) : Overrun k w' := by
  obtain ⟨guarded, unnoticed, t, d, found, executing_, fired⟩ := overrun
  have after := guarded.step stepped
  cases label with
  | arrive work =>
    cases stepped
    refine ⟨after, unnoticed, t, d, ?_, executing_, fired⟩
    have inside := (List.getElem?_eq_some_iff.mp found).1
    rw [List.getElem?_append_left inside]
    exact found
  | pass ns =>
    cases stepped
    exact ⟨after, unnoticed, t, d, found, executing_, fired⟩
  | thread j m =>
    obtain ⟨u, there, result⟩ := Option.bind_eq_some_iff.mp stepped
    obtain ⟨⟨c', u'⟩, moved, rfl⟩ := Option.map_eq_some_iff.mp result
    by_cases apart : j = k
    · subst apart
      cases found.symm.trans there
      obtain ⟨e, rfl⟩ := move_executing executing_ fired unnoticed moved
      exact absurd rfl (other e)
    · refine ⟨after, ?_, t, d, ?_, executing_, fired⟩
      · rcases (SectionThread.move_moved moved).interrupted with ⟨same, _⟩ | cleared |
          ⟨_, _, v, watching, expired⟩
        · exact same.trans unnoticed
        · exact cleared
        · have held : w.conn.lock = some k :=
            (guarded.holder k t found).mp (by rw [executing_]; rfl)
          have returned := guarded.settled there
            (fun own => apart (Option.some.inj (own.symm.trans held))) watching
          rw [Watchdog.returned, expired] at returned
          cases returned
      · exact (List.getElem?_set_ne apart).trans found

end

/-- A query past its deadline gives the lock up without its statement's help, unless its watchdog
had already fired when the statement began to run. -/
theorem deadline_frees_lock_iff {w : StoreThreads} {labels : List StoreStep} {k : Nat}
    {t : SectionThread} {d : Watchdog} (ran : runSteps step start labels = some w)
    (found : w.threads[k]? = some t) (executing_ : t.phase = .executing (some d)) :
    FreesLock k w ↔ d.phase ≠ .fired ∨ w.conn.interrupted = some k := by
  have guarded := guarded_run ran
  constructor
  · rintro ⟨more, last, rest, unfinished, free⟩
    by_contra neither
    obtain ⟨fired, unraised⟩ := not_or.mp neither
    have unnoticed : w.conn.interrupted = none := by
      cases raised : w.conn.interrupted with
      | none => rfl
      | some j =>
        obtain rfl := guarded.own k t found ⟨_, executing_⟩ j raised
        exact absurd raised unraised
    have overrun : Overrun k last :=
      runSteps_guarded (G := fun _ label => ∀ e, label ≠ .thread k (.finish e))
        (fun _ _ _ stepped other overrun => Overrun.step overrun stepped other) rest
        (fun past label later _ _ split _ _ e same =>
          unfinished e (by rw [split, ← same]; exact List.mem_append_right _ (List.mem_cons_self)))
        ⟨guarded, unnoticed, t, d, found, executing_, not_not.mp fired⟩
    obtain ⟨u, v, there, running, _⟩ := overrun.running
    exact free ((overrun.guarded.holder k u there).mp (by rw [running]; rfl))
  · intro early
    cases phase : d.phase with
    | waiting => exact freesLock_waiting found executing_ phase
    | expired => exact freesLock_expired found executing_ phase
    | stoodDown =>
      have standing := (guarded.fits k t found).standing d (by rw [executing_]; rfl) phase
      rw [executing_] at standing
      cases standing
    | fired =>
      rcases early with unfired | raised
      · exact absurd phase unfired
      · exact freesLock_raised found executing_ phase raised

/-- The deadline passes while the statement is still being prepared. -/
def firedBeforeRun : List StoreStep :=
  [.arrive (.queryWithin 30), .thread 0 .lock, .thread 0 .arm, .pass 30, .thread 0 .expire,
    .thread 0 .fire, .thread 0 .execute]

theorem deadline_frees_lock_iff_firedBeforeRun : ∃ w,
    runSteps step start firedBeforeRun = some w ∧ ¬ FreesLock 0 w := by
  refine ⟨_, rfl, fun frees => ?_⟩
  have ran : runSteps step start firedBeforeRun = _ := rfl
  rcases (deadline_frees_lock_iff ran rfl rfl).mp frees with unfired | raised
  · exact unfired rfl
  · cases raised

end StoreThreads

end NetObserver
