import NetObserver.KeyRuns
import NetObserver.ProxyConditions

/-! The endpoint block against the cohorts of the window: the newest one marks an end, the ones
before it are judged in full. -/

namespace NetObserver

open KeyRuns

def endpointRows (rows : List ProxySample) : List ProxySample := rows.filter fun p => !isReadingOnly p

/-- The cohorts of the window, newest first: maximal runs of endpoint rows with one stamp. -/
def endpointCohorts (w : RecentWindow) : List (List ProxySample) :=
  runsBy (·.tsUs) (endpointRows w.proxies)

/-- The ended cohorts the condition judges: those right behind the newest one. -/
def judgedCohorts (consecutive : Nat) (w : RecentWindow) : List (List ProxySample) :=
  ((endpointCohorts w).drop 1).take consecutive

/-- The judged cohorts and the newest one exist, and the scan reaches every row of them. -/
structure CohortsInReach (consecutive : Nat) (w : RecentWindow) : Prop where
  exist : consecutive < (endpointCohorts w).length
  reached : ((endpointCohorts w).take (consecutive + 1)).flatten <+:
    endpointRows (w.recentProxy endpointBlockScan)

/-- What the fold holds of a cohort. -/
def cohortOf (run : List ProxySample) : Cohort where
  tsUs := (run.head?.map (·.tsUs)).getD 0
  rows := run.length
  allFail := run.all fun p => p.tcp == .fail

theorem cohortsFrom_endpointRows (consecutive : Nat) (cohorts : List Cohort)
    (rows : List ProxySample) :
    cohortsFrom consecutive cohorts (endpointRows rows) = cohortsFrom consecutive cohorts rows := by
  induction rows generalizing cohorts with
  | nil => rfl
  | cons p rows ih =>
    unfold endpointRows at ih ⊢
    cases reading : isReadingOnly p with
    | true =>
      rw [List.filter_cons_of_neg (by simp [reading]), ih, cohortsFrom, if_pos reading]
    | false =>
      have kept : ¬ isReadingOnly p = true := by simp [reading]
      rw [List.filter_cons_of_pos (by simp [reading]), cohortsFrom, cohortsFrom, if_neg kept,
        if_neg kept]
      cases cohorts with
      | nil => exact ih _
      | cons c newer => simp only [ih]

/-- A row of another stamp begins a cohort, unless one more than the judged ones is there. -/
theorem cohortsFrom_begin {consecutive : Nat} {cohorts : List Cohort} {p : ProxySample}
    (endpoint : isReadingOnly p = false) (begins : ∀ c ∈ cohorts.head?, c.tsUs ≠ p.tsUs)
    (rows : List ProxySample) :
    cohortsFrom consecutive cohorts (p :: rows) =
      if consecutive < cohorts.length then cohorts
      else cohortsFrom consecutive (⟨p.tsUs, 1, p.tcp == .fail⟩ :: cohorts) rows := by
  have kept : ¬ isReadingOnly p = true := by simp [endpoint]
  rw [cohortsFrom, if_neg kept]
  cases cohorts with
  | nil => rfl
  | cons c newer => exact if_neg (begins c rfl)

/-- The rows of one stamp all go to its cohort. -/
theorem cohortsFrom_run {consecutive : Nat} (c : Cohort) (newer : List Cohort)
    {run : List ProxySample} (endpoint : ∀ p ∈ run, isReadingOnly p = false)
    (same : ∀ p ∈ run, p.tsUs = c.tsUs) (rows : List ProxySample) :
    cohortsFrom consecutive (c :: newer) (run ++ rows) =
      cohortsFrom consecutive (⟨c.tsUs, c.rows + run.length,
        c.allFail && run.all fun p => p.tcp == .fail⟩ :: newer) rows := by
  induction run generalizing c with
  | nil => simp
  | cons p run ih =>
    obtain ⟨isEndpoint, endpoints⟩ := List.forall_mem_cons.mp endpoint
    obtain ⟨stamp, stamps⟩ := List.forall_mem_cons.mp same
    have kept : ¬ isReadingOnly p = true := by simp [isEndpoint]
    rw [List.cons_append, cohortsFrom, if_neg kept]
    dsimp only
    rw [if_pos stamp.symm,
      ih ⟨c.tsUs, c.rows + 1, c.allFail && (p.tcp == .fail)⟩ endpoints stamps]
    have count : c.rows + 1 + run.length = c.rows + (p :: run).length := by
      rw [List.length_cons]
      omega
    rw [count, List.all_cons, Bool.and_assoc]

/-- The fold holds the newest runs of one stamp, at most one more than are judged. -/
theorem cohortsFrom_flatten (consecutive : Nat) (cohorts : List Cohort)
    {runs : List (List ProxySample)} (full : [] ∉ runs)
    (same : ∀ run ∈ runs, ∀ p ∈ run, ∀ q ∈ run, p.tsUs = q.tsUs)
    (apart : Apart (·.tsUs) runs) (endpoint : ∀ run ∈ runs, ∀ p ∈ run, isReadingOnly p = false)
    (begins : ∀ c ∈ cohorts.head?, ∀ run ∈ runs.head?, ∀ p ∈ run.head?, c.tsUs ≠ p.tsUs) :
    cohortsFrom consecutive cohorts runs.flatten =
      ((runs.take (consecutive + 1 - cohorts.length)).map cohortOf).reverse ++ cohorts := by
  induction runs generalizing cohorts with
  | nil => simp [cohortsFrom]
  | cons run runs ih =>
    cases run with
    | nil => exact absurd List.mem_cons_self full
    | cons p run =>
      obtain ⟨isEndpoint, endpoints⟩ := List.forall_mem_cons.mp endpoint
      obtain ⟨stamp, stamps⟩ := List.forall_mem_cons.mp same
      have apart' := apart
      unfold Apart at apart'
      rw [List.map_cons, List.isChain_cons] at apart'
      obtain ⟨next, aparts⟩ := apart'
      rw [List.flatten_cons, List.cons_append, cohortsFrom_begin (isEndpoint p List.mem_cons_self)
        fun c first => begins c first _ rfl p rfl]
      by_cases enough : consecutive < cohorts.length
      · have none_more : consecutive + 1 - cohorts.length = 0 := by omega
        rw [if_pos enough, none_more]
        rfl
      have endpointTail : ∀ q ∈ run, isReadingOnly q = false :=
        fun q listed => isEndpoint q (List.mem_cons_of_mem p listed)
      have stampTail : ∀ q ∈ run, q.tsUs = p.tsUs :=
        fun q listed => stamp q (List.mem_cons_of_mem p listed) p List.mem_cons_self
      have more : consecutive + 1 - cohorts.length =
          (consecutive + 1 - (cohorts.length + 1)) + 1 := by omega
      have held : (⟨p.tsUs, 1 + run.length, (p.tcp == .fail) && run.all fun q => q.tcp == .fail⟩ :
          Cohort) = cohortOf (p :: run) := by
        simp [cohortOf, Nat.add_comm]
      rw [if_neg enough, cohortsFrom_run _ _ endpointTail stampTail, held,
        ih _ (fun listed => full (List.mem_cons_of_mem _ listed)) stamps aparts endpoints, more,
        List.take_succ_cons, List.map_cons, List.reverse_cons, List.length_cons, List.append_assoc]
      · rfl
      · intro c first run' first' q head
        obtain rfl : cohortOf (p :: run) = c := Option.some.inj first
        have headed : some q.tsUs ∈ (runs.map fun run => run.head?.map (·.tsUs)).head? := by
          rw [List.head?_map, Option.mem_def.mp first', Option.map_some, Option.mem_def.mp head]
          rfl
        intro same
        exact next _ headed (congrArg some same)

theorem cohortsFrom_reverse (consecutive : Nat) (rows : List ProxySample) :
    (cohortsFrom consecutive [] rows).reverse =
      ((runsBy (·.tsUs) (endpointRows rows)).take (consecutive + 1)).map cohortOf := by
  obtain ⟨all, full, same, apart⟩ := runsBy_eq_iff.mp
    (rfl : runsBy (·.tsUs) (endpointRows rows) = runsBy (·.tsUs) (endpointRows rows))
  have endpoint : ∀ run ∈ runsBy (·.tsUs) (endpointRows rows), ∀ p ∈ run,
      isReadingOnly p = false := by
    intro run listed p inRun
    have kept : p ∈ endpointRows rows := by
      rw [all]
      exact List.mem_flatten_of_mem listed inRun
    simpa using (List.mem_filter.mp kept).2
  rw [← cohortsFrom_endpointRows, congrArg (cohortsFrom consecutive []) all,
    cohortsFrom_flatten consecutive [] full same apart endpoint (by simp)]
  simp

/-- In reach, the fold judges the ended cohorts of the window. -/
theorem judged_of_reach {consecutive : Nat} {w : RecentWindow}
    (reach : CohortsInReach consecutive w) :
    ((cohortsFrom consecutive [] (w.recentProxy endpointBlockScan)).reverse).drop 1 =
      (judgedCohorts consecutive w).map cohortOf := by
  have front : endpointRows (w.recentProxy endpointBlockScan) <+: endpointRows w.proxies :=
    (List.take_prefix endpointBlockScan w.proxies).filter _
  have newest := take_runsBy_of_prefix front reach.reached
  rw [cohortsFrom_reverse, newest, ← List.map_drop, List.drop_take]
  rfl

theorem length_judgedCohorts {consecutive : Nat} {w : RecentWindow}
    (reach : CohortsInReach consecutive w) : (judgedCohorts consecutive w).length = consecutive := by
  have exist := reach.exist
  unfold judgedCohorts
  rw [List.length_take, List.length_drop]
  omega

/-- Every row of every judged cohort failed. -/
def AllJudgedFail (consecutive : Nat) (w : RecentWindow) : Prop :=
  ∀ cohort ∈ judgedCohorts consecutive w, ∀ p ∈ cohort, p.tcp = .fail

theorem allFail_cohortOf (run : List ProxySample) :
    (cohortOf run).allFail = true ↔ ∀ p ∈ run, p.tcp = .fail := by
  simp [cohortOf]

theorem endpointBlock_isSome_iff {consecutive : Nat} {w : RecentWindow} (wanted : 0 < consecutive)
    (reach : CohortsInReach consecutive w) :
    ((endpointBlock consecutive).eval w).isSome ↔
      (∃ l, w.lastLink = some l ∧ l.direct = .ok) ∧ AllJudgedFail consecutive w := by
  have count := length_judgedCohorts reach
  simp only [endpointBlock, judged_of_reach reach, List.length_map, count]
  cases newest : w.lastLink with
  | none => simp
  | some last =>
    by_cases answers : last.direct = .ok
    · cases judged : judgedCohorts consecutive w with
      | nil =>
        rw [judged, List.length_nil] at count
        omega
      | cons run runs =>
        by_cases fails : AllJudgedFail consecutive w
        · have all : ((run :: runs).map cohortOf).all (·.allFail) = true := by
            rw [List.all_eq_true, List.forall_mem_map, ← judged]
            exact fun cohort listed => (allFail_cohortOf cohort).mpr (fails cohort listed)
          rw [Option.bind_eq_bind, Option.bind_some, if_neg (not_not.mpr answers),
            if_neg (Nat.lt_irrefl _), all]
          exact iff_of_true rfl ⟨⟨last, rfl, answers⟩, fails⟩
        · have some_not : ((run :: runs).map cohortOf).all (·.allFail) = false := by
            rw [Bool.eq_false_iff, Ne, List.all_eq_true, List.forall_mem_map, ← judged]
            exact fun all => fails fun cohort listed => (allFail_cohortOf cohort).mp (all cohort listed)
          rw [Option.bind_eq_bind, Option.bind_some, if_neg (not_not.mpr answers),
            if_neg (Nat.lt_irrefl _), some_not]
          exact iff_of_false Bool.false_ne_true fun both => fails both.2
    · rw [Option.bind_eq_bind, Option.bind_some, if_pos answers]
      refine iff_of_false Bool.false_ne_true ?_
      rintro ⟨⟨l, found, direct⟩, -⟩
      obtain rfl := Option.some.inj found
      exact answers direct

/-- The answer is read off the newest link's own verdict and the judged cohorts. -/
theorem endpointBlock_eval_congr {consecutive : Nat} {w w' : RecentWindow}
    (reach : CohortsInReach consecutive w) (reach' : CohortsInReach consecutive w')
    (direct : w.lastLink.map (·.direct) = w'.lastLink.map (·.direct))
    (judged : judgedCohorts consecutive w = judgedCohorts consecutive w') :
    (endpointBlock consecutive).eval w = (endpointBlock consecutive).eval w' := by
  simp only [endpointBlock, judged_of_reach reach, judged_of_reach reach', judged]
  cases newest : w.lastLink with
  | none =>
    rw [newest, Option.map_none, eq_comm, Option.map_eq_none_iff] at direct
    rw [direct]
  | some last =>
    rw [newest, Option.map_some, eq_comm] at direct
    obtain ⟨last', newest', same⟩ := Option.map_eq_some_iff.mp direct
    rw [newest', Option.bind_eq_bind, Option.bind_some, Option.bind_eq_bind, Option.bind_some, same]

/-- A failed row taken out of a cohort of several leaves the verdict on every cohort as it was. -/
theorem allJudgedFail_erase {consecutive : Nat} {w w' : RecentWindow}
    {before after : List (List ProxySample)} {front back : List ProxySample} {p : ProxySample}
    (cut : endpointCohorts w = before ++ (front ++ p :: back) :: after)
    (several : front ++ back ≠ []) (failed : p.tcp = .fail)
    (left : endpointRows w'.proxies = before.flatten ++ (front ++ back) ++ after.flatten) :
    AllJudgedFail consecutive w ↔ AllJudgedFail consecutive w' := by
  have cut' : endpointCohorts w' = before ++ (front ++ back) :: after := by
    unfold endpointCohorts
    rw [left, runsBy_erase cut several]
  have verdicts : (endpointCohorts w).map (fun run => run.all fun q => q.tcp == .fail) =
      (endpointCohorts w').map fun run => run.all fun q => q.tcp == .fail := by
    simp [cut, cut', failed]
  have fails : ∀ v : RecentWindow, AllJudgedFail consecutive v ↔
      ∀ verdict ∈ (((endpointCohorts v).map fun run =>
        run.all fun q => q.tcp == .fail).drop 1).take consecutive, verdict = true := by
    intro v
    unfold AllJudgedFail judgedCohorts
    rw [← List.map_drop, ← List.map_take, List.forall_mem_map]
    simp only [List.all_eq_true, beq_iff_eq]
  rw [fails w, fails w', verdicts]

/-- The condition judges the ended cohorts and each in full, nothing of the newest one and no
reading-only row, and by whether they failed alone. -/
theorem endpointBlock_judges_ended {consecutive : Nat} {w : RecentWindow}
    (wanted : 0 < consecutive) (reach : CohortsInReach consecutive w) :
    (((endpointBlock consecutive).eval w).isSome ↔
      (∃ l, w.lastLink = some l ∧ l.direct = .ok) ∧ AllJudgedFail consecutive w) ∧
    ∀ w', CohortsInReach consecutive w' →
      w.lastLink.map (·.direct) = w'.lastLink.map (·.direct) →
      (judgedCohorts consecutive w = judgedCohorts consecutive w' →
        (endpointBlock consecutive).eval w = (endpointBlock consecutive).eval w') ∧
      ∀ before front p back after,
        endpointCohorts w = before ++ (front ++ p :: back) :: after → front ++ back ≠ [] →
        p.tcp = .fail →
        endpointRows w'.proxies = before.flatten ++ (front ++ back) ++ after.flatten →
        ((endpointBlock consecutive).eval w).isSome = ((endpointBlock consecutive).eval w').isSome := by
  refine ⟨endpointBlock_isSome_iff wanted reach, ?_⟩
  intro w' reach' direct
  refine ⟨endpointBlock_eval_congr reach reach' direct, ?_⟩
  intro before front p back after cut several failed left
  rw [Bool.eq_iff_iff, endpointBlock_isSome_iff wanted reach, endpointBlock_isSome_iff wanted reach',
    allJudgedFail_erase cut several failed left]
  have answers : ∀ v : RecentWindow, (∃ l, v.lastLink = some l ∧ l.direct = .ok) ↔
      v.lastLink.map (·.direct) = some .ok := by
    intro v
    rw [Option.map_eq_some_iff]
  rw [answers, answers, direct]

/-- The window after these endpoint rows, the reference host answering. -/
def fleetWindow (rows : List (Int × String × TcpVerdict)) : RecentWindow :=
  runWindow (RecentWindow.new windowCap)
    (.push (.link { LinkSample.gatewayOnly 0 .ok with direct := .ok }) ::
      rows.map fun row => .push (.proxy (ProxySample.probeOnly row.1 row.2.1 row.2.2)))

theorem endpointBlock_judges_ended_once :
    ((endpointBlock 1).eval
        (fleetWindow [(0, "192.0.2.1", .fail), (0, "192.0.2.2", .fail),
          (15, "192.0.2.1", .ok)])).isSome ∧
      (endpointBlock 1).eval
          (fleetWindow [(0, "192.0.2.1", .fail), (0, "192.0.2.2", .fail), (15, "192.0.2.1", .ok)]) =
        (endpointBlock 1).eval
          (fleetWindow [(0, "192.0.2.1", .fail), (0, "192.0.2.2", .fail), (15, "192.0.2.1", .fail),
            (15, "192.0.2.2", .skip)]) := by
  have reach : CohortsInReach 1 (fleetWindow [(0, "192.0.2.1", .fail), (0, "192.0.2.2", .fail),
      (15, "192.0.2.1", .ok)]) := ⟨by decide, [], rfl⟩
  have reach' : CohortsInReach 1 (fleetWindow [(0, "192.0.2.1", .fail), (0, "192.0.2.2", .fail),
      (15, "192.0.2.1", .fail), (15, "192.0.2.2", .skip)]) := ⟨by decide, [], rfl⟩
  have judges := endpointBlock_judges_ended (by decide : 0 < 1) reach
  refine ⟨judges.1.mpr ⟨⟨_, rfl, rfl⟩, ?_⟩, (judges.2 _ reach' rfl).1 rfl⟩
  unfold AllJudgedFail
  decide

/-- With no cohort to judge the condition never fires. -/
theorem endpointBlock_zero_silent :
    (endpointBlock 0).eval (fleetWindow [(0, "192.0.2.1", .fail)]) = none ∧
      CohortsInReach 0 (fleetWindow [(0, "192.0.2.1", .fail)]) ∧
      (∃ l, (fleetWindow [(0, "192.0.2.1", .fail)]).lastLink = some l ∧ l.direct = .ok) ∧
      AllJudgedFail 0 (fleetWindow [(0, "192.0.2.1", .fail)]) := by
  refine ⟨by decide, ⟨by decide, [], rfl⟩, ⟨_, rfl, rfl⟩, ?_⟩
  intro cohort judged
  cases judged

end NetObserver
