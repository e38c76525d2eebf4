import Mathlib.Logic.Basic
import Mathlib.Tactic.TypeStar

/-! Statements on a working copy that only a commit makes lasting. -/

namespace Transaction

universe u

variable {σ ε α β : Type u}

/-- A statement reads and writes the working copy, or fails with nothing done. -/
abbrev Statement (σ ε α : Type u) := StateT σ (Except ε) α

def statement (fault : Option ε) (act : σ → α × σ) : Statement σ ε α := fun s =>
  match fault with
  | some e => .error e
  | none => .ok (act s)

/-- What is lasting afterwards: the working copy once the commit is through, else what was before;
a transaction that is dropped is rolled back. -/
def transact (begins : Option ε) (body : Statement σ ε α) (commits : Option ε) (s : σ) :
    σ × Except ε α :=
  match begins, body s, commits with
  | some e, _, _ => (s, .error e)
  | none, .error e, _ => (s, .error e)
  | none, .ok _, some e => (s, .error e)
  | none, .ok (a, t), none => (t, .ok a)

variable {begins commits fault : Option ε} {body : Statement σ ε α} {s : σ} {e : ε} {a : α}

theorem transact_error (failed : (transact begins body commits s).2 = .error e) :
    (transact begins body commits s).1 = s := by
  unfold transact at failed ⊢
  split at failed
  next => rfl
  next => rfl
  next => rfl
  next => cases failed

theorem transact_ok (done : (transact begins body commits s).2 = .ok a) :
    body s = .ok (a, (transact begins body commits s).1) := by
  unfold transact at done ⊢
  split at done
  next => cases done
  next => cases done
  next => cases done
  next ran =>
    cases done
    exact ran

theorem statement_ok {act : σ → α × σ} {r : α × σ} (done : statement fault act s = .ok r) :
    fault = none ∧ act s = r := by
  unfold statement at done
  split at done
  · cases done
  · exact ⟨rfl, Except.ok.inj done⟩

theorem bind_ok {next : α → Statement σ ε β} {r : β × σ}
    (done : (body >>= next) s = .ok r) :
    ∃ a t, body s = .ok (a, t) ∧ next a t = .ok r := by
  change (body s >>= fun p => next p.1 p.2) = .ok r at done
  cases ran : body s with
  | error e =>
    rw [ran] at done
    cases done
  | ok p =>
    rw [ran] at done
    exact ⟨p.1, p.2, rfl, done⟩

/-! Several statements, numbered from `n` on -/

def applied (acts : List (σ → σ)) (s : σ) : σ := acts.foldl (fun t act => act t) s

/-- Each statement commits for itself, and the first that fails is the last. -/
def runEach (faults : Nat → Option ε) (n : Nat) : List (σ → σ) → σ → σ × Except ε PUnit
  | [], s => (s, .ok ⟨⟩)
  | act :: acts, s =>
    match faults n with
    | some e => (s, .error e)
    | none => runEach faults (n + 1) acts (act s)

/-- The same statements on one working copy. -/
def statements (faults : Nat → Option ε) (n : Nat) : List (σ → σ) → Statement σ ε PUnit
  | [] => pure ⟨⟩
  | act :: acts => do
    statement (faults n) fun s => (⟨⟩, act s)
    statements faults (n + 1) acts

variable {faults : Nat → Option ε} {n : Nat} {acts : List (σ → σ)}

theorem applied_cons (act : σ → σ) (acts : List (σ → σ)) (s : σ) :
    applied (act :: acts) s = applied acts (act s) := rfl

theorem applied_append (acts more : List (σ → σ)) (s : σ) :
    applied (acts ++ more) s = applied more (applied acts s) := List.foldl_append

theorem applied_keeps {β : Type*} (field : σ → β)
    (keeps : ∀ act ∈ acts, ∀ t, field (act t) = field t) : field (applied acts s) = field s := by
  induction acts generalizing s with
  | nil => rfl
  | cons act acts ih =>
    rw [applied_cons, ih fun other mem => keeps other (List.mem_cons_of_mem act mem)]
    exact keeps act List.mem_cons_self s

/-- Statements of one form add what they write one after the other. -/
theorem applied_map {α β : Type*} (field : σ → β) (add : β → α → β) {step : α → σ → σ}
    (each : ∀ a t, field (step a t) = add (field t) a) (run : List α) (s : σ) :
    field (applied (run.map step) s) = run.foldl add (field s) := by
  induction run generalizing s with
  | nil => rfl
  | cons a run ih => rw [List.map_cons, applied_cons, ih, each, List.foldl_cons]

theorem applied_appends {α ρ : Type*} (table : σ → List ρ) (row : α → ρ) {step : α → σ → σ}
    (each : ∀ a t, table (step a t) = table t ++ [row a]) (run : List α) (s : σ) :
    table (applied (run.map step) s) = table s ++ run.map row := by
  rw [applied_map table (fun rows a => rows ++ [row a]) each, List.foldl_append_eq_append,
    ← List.flatMap_def, ← List.map_eq_flatMap]

theorem runEach_ok_iff :
    (runEach faults n acts s).2 = .ok ⟨⟩ ↔ ∀ k < acts.length, faults (n + k) = none := by
  induction acts generalizing n s with
  | nil =>
    constructor
    · intro _ k low
      cases low
    · intro _
      rfl
  | cons act acts ih =>
    unfold runEach
    cases fails : faults n with
    | some e =>
      constructor
      · intro done
        cases done
      · intro clear
        have own := clear 0 (Nat.zero_lt_succ _)
        rw [Nat.add_zero, fails] at own
        cases own
    | none =>
      dsimp only
      rw [ih, List.length_cons]
      constructor
      · intro clear k low
        cases k with
        | zero => exact fails
        | succ k =>
          have own := clear k (by omega)
          rwa [show n + (k + 1) = n + 1 + k by omega]
      · intro clear k low
        have own := clear (k + 1) (by omega)
        rwa [show n + 1 + k = n + (k + 1) by omega]

theorem runEach_ok (done : (runEach faults n acts s).2 = .ok ⟨⟩) :
    (runEach faults n acts s).1 = applied acts s := by
  induction acts generalizing n s with
  | nil => rfl
  | cons act acts ih =>
    unfold runEach at done ⊢
    cases fails : faults n with
    | some e =>
      rw [fails] at done
      cases done
    | none =>
      rw [fails] at done
      exact ih done

/-- Some of the statements are done, in their order from the first. -/
theorem runEach_landed (faults : Nat → Option ε) (n : Nat) (acts : List (σ → σ)) (s : σ) :
    ∃ landed ≤ acts.length, (runEach faults n acts s).1 = applied (acts.take landed) s := by
  induction acts generalizing n s with
  | nil => exact ⟨0, Nat.le_refl 0, rfl⟩
  | cons act acts ih =>
    unfold runEach
    cases faults n with
    | some e => exact ⟨0, Nat.zero_le _, rfl⟩
    | none =>
      obtain ⟨landed, le, eq⟩ := ih (n + 1) (act s)
      exact ⟨landed + 1, Nat.succ_le_succ le, eq⟩

theorem runEach_single {act : σ → σ} (failed : (runEach faults n [act] s).2 = .error e) :
    (runEach faults n [act] s).1 = s := by
  unfold runEach at failed ⊢
  cases fails : faults n with
  | some e => rfl
  | none =>
    rw [fails] at failed
    cases failed

/-- What no statement touches is as before. -/
theorem runEach_keeps {β : Type*} (field : σ → β)
    (keeps : ∀ act ∈ acts, ∀ t, field (act t) = field t) :
    field (runEach faults n acts s).1 = field s := by
  induction acts generalizing n s with
  | nil => rfl
  | cons act acts ih =>
    unfold runEach
    cases faults n with
    | some e => rfl
    | none =>
      have rest := fun other mem => keeps other (List.mem_cons_of_mem act mem)
      exact (ih rest).trans (keeps act List.mem_cons_self s)

/-- Where the first statement shows and no later one takes it back, a failure leaves things as they
were only if it was the first that failed. -/
theorem runEach_restores_iff {β : Type*} (field : σ → β) {first : σ → σ}
    (shows : field (first s) ≠ field s) (keeps : ∀ act ∈ acts, ∀ t, field (act t) = field t) :
    (∀ e, (runEach faults n (first :: acts) s).2 = .error e →
        (runEach faults n (first :: acts) s).1 = s) ↔
      faults n ≠ none ∨ ∀ k < acts.length, faults (n + 1 + k) = none := by
  unfold runEach
  cases fails : faults n with
  | some e =>
    constructor
    · intro _
      exact .inl fun same => nomatch same
    · intro _ _ _
      rfl
  | none =>
    dsimp only
    rw [← runEach_ok_iff (s := first s)]
    have left : field (runEach faults (n + 1) acts (first s)).1 ≠ field s := by
      rw [runEach_keeps field keeps]
      exact shows
    constructor
    · intro restores
      right
      cases ended : (runEach faults (n + 1) acts (first s)).2 with
      | ok => rfl
      | error e => exact absurd (congrArg field (restores e ended)) left
    · intro fine e failed
      rcases fine with absurd_ | done
      · exact absurd rfl absurd_
      · rw [done] at failed
        cases failed

theorem statements_ok {r : PUnit × σ} (done : statements faults n acts s = .ok r) :
    r.2 = applied acts s := by
  induction acts generalizing n s with
  | nil =>
    cases done
    rfl
  | cons act acts ih =>
    obtain ⟨_, t, own, rest⟩ := bind_ok done
    cases (statement_ok own).2
    exact ih rest

end Transaction
