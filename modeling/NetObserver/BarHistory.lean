import NetObserver.BarState
import Mathlib.Data.List.Induction

/-! What the bar remembers over a run of its reads: the last snapshot, how the last read went, the
last resume it saw, and the columns of its sparkline. -/

namespace NetObserver.Bar

open Machine

/-- The snapshots a bar has had, each with the instant it came in. -/
def seen (first : StatusSnapshot) (labels : List GlanceStep) : List (StatusSnapshot × Int) :=
  (first, 0) :: labels.filterMap GlanceStep.snapshot?

/-- The instants at which collection was seen on where it was last seen off. -/
def resumes : List (StatusSnapshot × Int) → List Int
  | was :: is :: rest =>
    (if !was.1.observing && is.1.observing then [is.2] else []) ++ resumes (is :: rest)
  | _ => []

/-- What a refresh draws: a column of the timer, of the state its read left. -/
def column (g : Glance) : GlanceStep → Option HistoryPoint
  | .tick fresh readUs drawnUs =>
    let read := g.applyRead fresh readUs
    some (historyPoint read.snapshot (read.state drawnUs))
  | .refresh _ _ | .outcome _ _ _ => none

def columns (g : Glance) : List GlanceStep → List HistoryPoint
  | [] => []
  | label :: labels => (column g label).toList ++ columns (g.step label) labels

def lastError (firstErr : Option GlanceError) (labels : List GlanceStep) : Option GlanceError :=
  match labels.getLast? with
  | none => firstErr
  | some label =>
    match label.read with
    | .ok _ => none
    | .error e => some e

theorem resumes_snoc (front : List (StatusSnapshot × Int)) (was is : StatusSnapshot × Int) :
    resumes (front ++ [was, is]) = resumes (front ++ [was]) ++
      if !was.1.observing && is.1.observing then [is.2] else [] := by
  induction front with
  | nil => simp [resumes]
  | cons first front ih =>
    cases front with
    | nil => simp [resumes]
    | cons second front =>
      have rest := ih
      simp only [List.cons_append] at rest ⊢
      rw [resumes, rest, resumes, List.append_assoc]

theorem columns_append (g : Glance) (labels more : List GlanceStep) :
    columns g (labels ++ more) = columns g labels ++ columns (labels.foldl Glance.step g) more := by
  induction labels generalizing g with
  | nil => rfl
  | cons label labels ih =>
    rw [List.cons_append, columns, columns, ih, List.append_assoc, List.foldl_cons]

/-- What a step does is its read, and for the timer one more column. -/
theorem step_read (g : Glance) (label : GlanceStep) :
    (g.step label).snapshot = (g.applyRead label.read label.readUs).snapshot ∧
      (g.step label).error = (g.applyRead label.read label.readUs).error ∧
      (g.step label).resumeSeenUs = (g.applyRead label.read label.readUs).resumeSeenUs := by
  cases label with
  | tick fresh readUs drawnUs => exact ⟨rfl, rfl, rfl⟩
  | refresh fresh nowUs => exact ⟨rfl, rfl, rfl⟩
  | outcome control fresh nowUs =>
    cases fresh with
    | ok s => exact ⟨rfl, rfl, rfl⟩
    | error e => exact ⟨rfl, rfl, rfl⟩

theorem applyRead_history (g : Glance) (fresh : Except GlanceError StatusSnapshot) (nowUs : Int) :
    (g.applyRead fresh nowUs).history = g.history := by
  cases fresh with
  | ok s => rfl
  | error e => rfl

/-- A list cut to its last `n`, kept so under one more entry. -/
theorem drop_snoc_last {α : Type*} (n : Nat) (pos : 0 < n) (all : List α) (last : α) :
    let kept := all.drop (all.length - n)
    (if kept.length = n then kept.drop 1 else kept) ++ [last] =
      (all ++ [last]).drop ((all ++ [last]).length - n) := by
  intro kept
  have length : kept.length = all.length - (all.length - n) := List.length_drop
  rw [List.length_append, List.length_singleton]
  by_cases full : n ≤ all.length
  · rw [if_pos (by omega), List.drop_drop, List.drop_append_of_le_length (by omega)]
    congr 2
    omega
  · rw [if_neg (by omega), show all.length + 1 - n = 0 by omega, List.drop_zero,
      show kept = all.drop 0 by rw [← show all.length - n = 0 by omega], List.drop_zero]

theorem step_history (g : Glance) (label : GlanceStep) (all : List HistoryPoint)
    (kept : g.history = all.drop (all.length - historyLen)) :
    (g.step label).history = (all ++ (column g label).toList).drop
      ((all ++ (column g label).toList).length - historyLen) := by
  cases label with
  | tick fresh readUs drawnUs =>
    show (if (g.applyRead fresh readUs).history.length = historyLen then _ else _) ++ [_] = _
    rw [applyRead_history, kept]
    exact drop_snoc_last historyLen (by decide) all _
  | refresh fresh nowUs =>
    show (g.applyRead fresh nowUs).history = _
    rw [applyRead_history, kept, column, Option.toList_none, List.append_nil]
  | outcome control fresh nowUs =>
    show (Glance.applyRead _ fresh nowUs).history = _
    rw [applyRead_history, column, Option.toList_none, List.append_nil]
    exact kept

/-- What the bar knows after a run of its reads. -/
structure Remembers (first : StatusSnapshot) (firstErr : Option GlanceError)
    (labels : List GlanceStep) (g : Glance) : Prop where
  snapshot : ∃ readUs, (seen first labels).getLast? = some (g.snapshot, readUs)
  error : g.error = lastError firstErr labels
  resume : g.resumeSeenUs = (resumes (seen first labels)).getLast?
  history : g.history = (columns (.new first firstErr) labels).drop
    ((columns (.new first firstErr) labels).length - historyLen)

theorem seen_snoc (first : StatusSnapshot) (labels : List GlanceStep) (label : GlanceStep) :
    seen first (labels ++ [label]) = seen first labels ++ label.snapshot?.toList := by
  unfold seen
  rw [List.filterMap_append, List.cons_append]
  cases taken : label.snapshot? with
  | none => rw [List.filterMap_cons_none taken, List.filterMap_nil, Option.toList_none]
  | some s => rw [List.filterMap_cons_some taken, List.filterMap_nil, Option.toList_some]

theorem remembers_run (first : StatusSnapshot) (firstErr : Option GlanceError)
    (labels : List GlanceStep) :
    Remembers first firstErr labels (labels.foldl Glance.step (.new first firstErr)) := by
  induction labels using List.reverseRecOn with
  | nil => exact ⟨⟨0, rfl⟩, rfl, rfl, rfl⟩
  | append_singleton labels label ih =>
    obtain ⟨⟨readUs, last⟩, _, resume, history⟩ := ih
    rw [List.foldl_append, List.foldl_cons, List.foldl_nil]
    generalize was : labels.foldl Glance.step (.new first firstErr) = g at last resume history ⊢
    have drawn : columns (.new first firstErr) (labels ++ [label]) =
        columns (.new first firstErr) labels ++ (column g label).toList := by
      rw [columns_append, was, columns, columns, List.append_nil]
    have kept := step_history g label _ history
    rw [← drawn] at kept
    obtain ⟨snapshot', error', resume'⟩ := step_read g label
    cases read : label.read with
    | error e =>
      have same : seen first (labels ++ [label]) = seen first labels := by
        rw [seen_snoc, GlanceStep.snapshot?, read, Option.toList_none, List.append_nil]
      rw [read] at snapshot' error' resume'
      refine ⟨⟨readUs, ?_⟩, ?_, ?_, kept⟩
      · rw [same, snapshot', last, Glance.applyRead]
      · simp only [error', lastError, List.getLast?_concat, read, Glance.applyRead]
      · rw [same, resume', ← resume, Glance.applyRead]
    | ok s =>
      have more : seen first (labels ++ [label]) = seen first labels ++ [(s, label.readUs)] := by
        rw [seen_snoc, GlanceStep.snapshot?, read, Option.toList_some]
      rw [read] at snapshot' error' resume'
      refine ⟨⟨label.readUs, ?_⟩, ?_, ?_, kept⟩
      · rw [more, List.getLast?_concat, snapshot', Glance.applyRead]
      · simp only [error', lastError, List.getLast?_concat, read, Glance.applyRead]
      · obtain ⟨front, split⟩ := List.getLast?_eq_some_iff.mp last
        rw [more, split, List.append_assoc, List.singleton_append, resumes_snoc, ← split, resume',
          Glance.applyRead]
        cases turned : !g.snapshot.observing && s.observing with
        | false => simp [resume]
        | true => simp

end NetObserver.Bar
