import Mathlib.Data.List.Chain
import NetObserver.Runs

/-! The throttle of a log line that a local process can trigger: one line an interval at most,
each with the count of the events kept back since the one before. -/

namespace NetObserver

structure Burst where
  suppressed : Nat
  total : Nat

structure RateLimitedLog where
  intervalNs : Nat
  lastLoggedNs : Option Nat
  suppressed : Nat
  total : Nat

def refusalLogIntervalNs : Nat := 60000000000

namespace RateLimitedLog

def new (intervalNs : Nat) : RateLimitedLog := ⟨intervalNs, none, 0, 0⟩

/-- `saturating_duration_since` is none at all from a later instant. -/
def due (log : RateLimitedLog) (nowNs : Nat) : Bool :=
  match log.lastLoggedNs with
  | none => true
  | some prev => decide (log.intervalNs ≤ nowNs - prev)

def record (log : RateLimitedLog) (nowNs : Nat) : RateLimitedLog × Option Burst :=
  let total := log.total + 1
  if log.due nowNs then
    ({ log with lastLoggedNs := some nowNs, suppressed := 0, total := total },
      some ⟨log.suppressed, total⟩)
  else ({ log with suppressed := log.suppressed + 1, total := total }, none)

/-- The limiter over the instants its site was reached at, with the lines it let through. -/
def recordAll (log : RateLimitedLog) : List Nat → RateLimitedLog × List (Nat × Burst)
  | [] => (log, [])
  | nowNs :: later =>
    let r := log.record nowNs
    let rest := recordAll r.1 later
    (rest.1, (r.2.map fun burst => (nowNs, burst)).toList ++ rest.2)

/-- A line counts the events since the last one and all of them so far. -/
inductive Recorded (log : RateLimitedLog) (nowNs : Nat) : RateLimitedLog × Option Burst → Prop where
  | line (due : ∀ prev, log.lastLoggedNs = some prev → log.intervalNs ≤ nowNs - prev) :
      Recorded log nowNs
        ({ log with lastLoggedNs := some nowNs, suppressed := 0, total := log.total + 1 },
          some ⟨log.suppressed, log.total + 1⟩)
  | kept (prev : Nat) (last : log.lastLoggedNs = some prev) (early : nowNs - prev < log.intervalNs) :
      Recorded log nowNs
        ({ log with suppressed := log.suppressed + 1, total := log.total + 1 }, none)

theorem record_cases (log : RateLimitedLog) (nowNs : Nat) :
    Recorded log nowNs (log.record nowNs) := by
  cases last : log.lastLoggedNs with
  | none =>
    have due : log.due nowNs = true := by rw [RateLimitedLog.due, last]
    rw [record, if_pos due]
    exact .line fun prev found => by simp [last] at found
  | some prev =>
    by_cases late : log.intervalNs ≤ nowNs - prev
    · have due : log.due nowNs = true := by simp [RateLimitedLog.due, last, late]
      rw [record, if_pos due]
      refine .line fun prev' found => ?_
      cases last.symm.trans found
      exact late
    · have early : ¬ log.due nowNs = true := by simp [RateLimitedLog.due, last, late]
      rw [record, if_neg early]
      exact .kept prev last (Nat.lt_of_not_le late)

/-- A line goes out an interval after the one before it, and counts on from it. -/
def Follows (intervalNs : Nat) (earlier later : Nat × Burst) : Prop :=
  intervalNs ≤ later.1 - earlier.1 ∧
    later.2.total = earlier.2.total + later.2.suppressed + 1

/-- The lines written of the events at `seen`: an event is told by a line of its own, or came
less than an interval after one. -/
structure Told (intervalNs : Nat) (seen : List Nat) (lines : List (Nat × Burst)) : Prop where
  first : seen ≠ [] → lines.head?.map Prod.snd = some ⟨0, 1⟩
  chain : lines.IsChain (Follows intervalNs)
  place : ∀ line ∈ lines, 0 < line.2.total ∧ seen[line.2.total - 1]? = some line.1
  near : ∀ (i nowNs : Nat), seen[i]? = some nowNs → ∃ line ∈ lines, line.2.total ≤ i + 1 ∧
    (line.2.total = i + 1 ∨ nowNs - line.1 < intervalNs)

/-- The limiter behind these events and lines. -/
structure Limiting (intervalNs : Nat) (seen : List Nat) (lines : List (Nat × Burst))
    (log : RateLimitedLog) : Prop extends Told intervalNs seen lines where
  interval : log.intervalNs = intervalNs
  total : log.total = seen.length
  last : log.lastLoggedNs = lines.getLast?.map Prod.fst
  waiting : (lines.getLast?.map fun line => line.2.total).getD 0 + log.suppressed = log.total

theorem limiting_new (intervalNs : Nat) : Limiting intervalNs [] [] (new intervalNs) where
  first := fun some => absurd rfl some
  chain := .nil
  place := fun line mem => by cases mem
  near := fun i nowNs found => by cases found
  interval := rfl
  total := rfl
  last := rfl
  waiting := rfl

namespace Limiting

variable {intervalNs nowNs : Nat} {seen : List Nat} {lines : List (Nat × Burst)}
  {log : RateLimitedLog}

theorem place_snoc (limiting : Limiting intervalNs seen lines log) :
    ∀ line ∈ lines, 0 < line.2.total ∧ (seen ++ [nowNs])[line.2.total - 1]? = some line.1 := by
  intro line mem
  obtain ⟨positive, there⟩ := limiting.place line mem
  have inside := (List.getElem?_eq_some_iff.mp there).1
  exact ⟨positive, (List.getElem?_append_left inside).trans there⟩

/-- The event of a line of its own. -/
theorem line (limiting : Limiting intervalNs seen lines log)
    (due : ∀ prev, log.lastLoggedNs = some prev → log.intervalNs ≤ nowNs - prev) :
    Limiting intervalNs (seen ++ [nowNs]) (lines ++ [(nowNs, ⟨log.suppressed, log.total + 1⟩)])
      { log with lastLoggedNs := some nowNs, suppressed := 0, total := log.total + 1 } := by
  have counted : log.total = seen.length := limiting.total
  have waiting := limiting.waiting
  refine ⟨⟨?_, ?_, ?_, ?_⟩, limiting.interval, ?_, ?_, ?_⟩
  · intro _
    by_cases none : seen = []
    · have zero : log.total = 0 := by rw [counted, none, List.length_nil]
      have unwritten : lines = [] := by
        refine List.eq_nil_iff_forall_not_mem.mpr fun line mem => ?_
        have place := (limiting.place line mem).2
        rw [none] at place
        cases place
      have unkept : log.suppressed = 0 := by omega
      rw [unwritten, zero, unkept]
      rfl
    · have first := limiting.first none
      rw [List.head?_append]
      cases head : lines.head? with
      | none =>
        rw [head] at first
        cases first
      | some line =>
        rw [head] at first
        exact first
  · refine List.isChain_append.mpr ⟨limiting.chain, .singleton _, ?_⟩
    intro line final next head
    cases head
    have last : log.lastLoggedNs = some line.1 := by
      rw [limiting.last, Option.mem_def.mp final, Option.map_some]
    rw [Option.mem_def.mp final] at waiting
    refine ⟨limiting.interval ▸ due _ last, ?_⟩
    exact congrArg (· + 1) waiting.symm
  · intro line mem
    rcases List.mem_append.mp mem with earlier | this
    · exact limiting.place_snoc line earlier
    · cases List.mem_singleton.mp this
      refine ⟨Nat.succ_pos _, ?_⟩
      rw [Nat.add_sub_cancel, counted, List.getElem?_concat_length]
  · intro i t found
    rcases Runs.getElem?_snoc_cases found with ⟨rfl, rfl⟩ | before
    · refine ⟨_, List.mem_append_right _ (List.mem_singleton_self _), ?_, .inl ?_⟩
      · exact Nat.le_of_eq (congrArg (· + 1) counted)
      · exact congrArg (· + 1) counted
    · obtain ⟨line, mem, near⟩ := limiting.near i t before
      exact ⟨line, List.mem_append_left _ mem, near⟩
  · rw [List.length_append, counted, List.length_singleton]
  · rw [List.getLast?_concat, Option.map_some]
  · rw [List.getLast?_concat]
    exact Nat.add_zero _

/-- The event is kept back: it waits for the next line. -/
theorem keep (limiting : Limiting intervalNs seen lines log) {prev : Nat}
    (last : log.lastLoggedNs = some prev) (early : nowNs - prev < log.intervalNs) :
    Limiting intervalNs (seen ++ [nowNs]) lines
      { log with suppressed := log.suppressed + 1, total := log.total + 1 } := by
  have counted : log.total = seen.length := limiting.total
  obtain ⟨line, final, logged⟩ := Option.map_eq_some_iff.mp (limiting.last.symm.trans last)
  have mem : line ∈ lines := List.mem_of_getLast? final
  have inside := (List.getElem?_eq_some_iff.mp (limiting.place line mem).2).1
  refine ⟨⟨?_, limiting.chain, limiting.place_snoc, ?_⟩, limiting.interval, ?_, ?_, ?_⟩
  · intro _
    refine limiting.first fun none => ?_
    rw [none] at inside
    cases inside
  · intro i t found
    rcases Runs.getElem?_snoc_cases found with ⟨rfl, rfl⟩ | before
    · refine ⟨line, mem, by omega, .inr ?_⟩
      rw [logged, ← limiting.interval]
      exact early
    · exact limiting.near i t before
  · rw [List.length_append, counted, List.length_singleton]
  · exact limiting.last
  · show _ + (log.suppressed + 1) = log.total + 1
    rw [← limiting.waiting]
    rfl

theorem event (limiting : Limiting intervalNs seen lines log) (nowNs : Nat) :
    Limiting intervalNs (seen ++ [nowNs])
      (lines ++ ((log.record nowNs).2.map fun burst => (nowNs, burst)).toList)
      (log.record nowNs).1 := by
  have recorded := record_cases log nowNs
  generalize log.record nowNs = r at recorded ⊢
  cases recorded with
  | line due => exact limiting.line due
  | kept prev last early =>
    rw [Option.map_none, Option.toList_none, List.append_nil]
    exact limiting.keep last early

theorem run (limiting : Limiting intervalNs seen lines log) (events : List Nat) :
    Limiting intervalNs (seen ++ events) (lines ++ (log.recordAll events).2)
      (log.recordAll events).1 := by
  induction events generalizing seen lines log with
  | nil =>
    rw [List.append_nil]
    show Limiting _ _ (lines ++ []) log
    rw [List.append_nil]
    exact limiting
  | cons nowNs later ih =>
    have next := ih (limiting.event nowNs)
    rw [List.append_assoc, List.append_assoc, List.singleton_append] at next
    exact next

end Limiting

/-- Lines an interval apart are few: one for each interval between the first and the last. -/
theorem lines_span {intervalNs fromNs toNs : Nat} (positive : 0 < intervalNs) :
    ∀ (line : Nat × Burst) (lines : List (Nat × Burst)),
      (line :: lines).IsChain (Follows intervalNs) →
      (∀ l ∈ line :: lines, fromNs ≤ l.1 ∧ l.1 ≤ toNs) →
      line.1 + lines.length * intervalNs ≤ toNs
  | line, [], _, within => by
    have inside := (within line List.mem_cons_self).2
    rw [List.length_nil, Nat.zero_mul]
    exact inside
  | line, next :: lines, chain, within => by
    obtain ⟨follows, later⟩ := List.isChain_cons_cons.mp chain
    have rest := lines_span positive next lines later fun l mem => within l (.tail _ mem)
    have apart := follows.1
    rw [List.length_cons, Nat.succ_mul]
    omega

/-- What a throttled log site tells of the events that reach it, whatever their instants and their
order: the first is logged, every other has a line or came within an interval after one, each line
is numbered by its event, and the count it carries is of the events since the line before. -/
theorem told (intervalNs : Nat) (events : List Nat) :
    Told intervalNs events ((new intervalNs).recordAll events).2 := by
  have limiting := (limiting_new intervalNs).run events
  rw [List.nil_append, List.nil_append] at limiting
  exact limiting.toTold

theorem lines_bounded {intervalNs fromNs toNs : Nat} {events : List Nat}
    {lines : List (Nat × Burst)} (positive : 0 < intervalNs)
    (told : Told intervalNs events lines)
    (within : ∀ nowNs ∈ events, fromNs ≤ nowNs ∧ nowNs ≤ toNs) :
    lines.length ≤ (toNs - fromNs) / intervalNs + 1 := by
  cases lines with
  | nil => exact Nat.zero_le _
  | cons line lines =>
    have inside : ∀ l ∈ line :: lines, fromNs ≤ l.1 ∧ l.1 ≤ toNs := fun l mem =>
      within l.1 (List.mem_of_getElem? (told.place l mem).2)
    have span := lines_span positive line lines told.chain inside
    have started := (inside line List.mem_cons_self).1
    have few : lines.length ≤ (toNs - fromNs) / intervalNs :=
      (Nat.le_div_iff_mul_le positive).mpr (by omega)
    rw [List.length_cons]
    omega

end RateLimitedLog

end NetObserver
