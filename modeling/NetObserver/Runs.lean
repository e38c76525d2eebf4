import Mathlib.Data.List.Basic
import Mathlib.Data.List.Induction

/-! Runs of labelled steps, over arbitrary states, labels and outputs. -/

namespace Runs

variable {σ α β : Type*}

/-- The state a partial step reaches on a list of labels, `none` once a label is refused. -/
def runSteps (step : σ → α → Option σ) : σ → List α → Option σ
  | s, [] => some s
  | s, a :: as => (step s a).bind fun t => runSteps step t as

@[simp] theorem runSteps_nil (step : σ → α → Option σ) (s : σ) : runSteps step s [] = some s := rfl

theorem runSteps_cons_eq_some {step : σ → α → Option σ} {s t : σ} {a : α} {as : List α} :
    runSteps step s (a :: as) = some t ↔ ∃ m, step s a = some m ∧ runSteps step m as = some t := by
  simp [runSteps, Option.bind_eq_some_iff]

theorem exists_runSteps_cons {step : σ → α → Option σ} {P : σ → Prop} {s m : σ} {a : α}
    {as : List α} (stepped : step s a = some m) (rest : ∃ t, runSteps step m as = some t ∧ P t) :
    ∃ t, runSteps step s (a :: as) = some t ∧ P t := by
  obtain ⟨t, ran, holds⟩ := rest
  exact ⟨t, runSteps_cons_eq_some.mpr ⟨m, stepped, ran⟩, holds⟩

theorem runSteps_append_eq_some {step : σ → α → Option σ} {s t : σ} {as bs : List α} :
    runSteps step s (as ++ bs) = some t ↔
      ∃ m, runSteps step s as = some m ∧ runSteps step m bs = some t := by
  induction as generalizing s with
  | nil => simp
  | cons a as ih =>
    rw [List.cons_append, runSteps_cons_eq_some]
    constructor
    · rintro ⟨next, stepped, rest⟩
      obtain ⟨m, first, last⟩ := ih.mp rest
      exact ⟨m, runSteps_cons_eq_some.mpr ⟨next, stepped, first⟩, last⟩
    · rintro ⟨m, first, last⟩
      obtain ⟨next, stepped, rest⟩ := runSteps_cons_eq_some.mp first
      exact ⟨next, stepped, ih.mpr ⟨m, rest, last⟩⟩

theorem runSteps_invariant {step : σ → α → Option σ} {P : σ → Prop}
    (preserve : ∀ s a t, step s a = some t → P s → P t) {s t : σ} {as : List α}
    (h : runSteps step s as = some t) (hs : P s) : P t := by
  induction as generalizing s with
  | nil => cases h; exact hs
  | cons a as ih =>
    obtain ⟨m, hm, h⟩ := runSteps_cons_eq_some.mp h
    exact ih h (preserve s a m hm hs)

/-- What every step keeps whose guard holds, a run of such steps keeps. -/
theorem runSteps_guarded {step : σ → α → Option σ} {P : σ → Prop} {G : σ → α → Prop}
    (preserve : ∀ s a t, step s a = some t → G s a → P s → P t) {s t : σ} {as : List α}
    (h : runSteps step s as = some t)
    (guards : ∀ past a rest u v, as = past ++ a :: rest → runSteps step s past = some u →
      step u a = some v → G u a) (hs : P s) : P t := by
  induction as generalizing s with
  | nil => cases h; exact hs
  | cons a as ih =>
    obtain ⟨m, hm, h⟩ := runSteps_cons_eq_some.mp h
    refine ih h ?_ (preserve s a m hm (guards [] a as s m rfl rfl hm) hs)
    intro past b rest u v eq reach stepped
    refine guards (a :: past) b rest u v (by rw [eq]; rfl) ?_ stepped
    exact runSteps_cons_eq_some.mpr ⟨m, hm, reach⟩

def emit (step : σ → α → σ × List β) : σ → List α → σ × List β
  | s, [] => (s, [])
  | s, a :: as =>
    let here := step s a
    let rest := emit step here.1 as
    (rest.1, here.2 ++ rest.2)

@[simp] theorem emit_nil (step : σ → α → σ × List β) (s : σ) : emit step s [] = (s, []) := rfl

@[simp] theorem emit_cons (step : σ → α → σ × List β) (s : σ) (a : α) (as : List α) :
    emit step s (a :: as) =
      ((emit step (step s a).1 as).1, (step s a).2 ++ (emit step (step s a).1 as).2) := rfl

theorem emit_invariant {step : σ → α → σ × List β} {P : σ → Prop}
    (preserve : ∀ s a, P s → P (step s a).1) {s : σ} (as : List α) (hs : P s) :
    P (emit step s as).1 := by
  induction as generalizing s with
  | nil => exact hs
  | cons a as ih => exact ih (preserve s a hs)

theorem emit_append (step : σ → α → σ × List β) (s : σ) (as bs : List α) :
    emit step s (as ++ bs) =
      ((emit step (emit step s as).1 bs).1,
        (emit step s as).2 ++ (emit step (emit step s as).1 bs).2) := by
  induction as generalizing s with
  | nil => rfl
  | cons a as ih => simp [ih]

/-- What holds of the empty run and is kept by one more label holds of every run and of all it
has written. -/
theorem emit_induct {step : σ → α → σ × List β} {P : List α → σ → List β → Prop} {s : σ}
    (init : P [] s [])
    (preserve : ∀ as t outs a, P as t outs → P (as ++ [a]) (step t a).1 (outs ++ (step t a).2))
    (as : List α) : P as (emit step s as).1 (emit step s as).2 := by
  induction as using List.reverseRecOn with
  | nil => exact init
  | append_singleton as a ih =>
    have next := preserve as _ _ a ih
    rw [emit_append]
    simpa using next

/-- Components that each take every label on their own: the outputs keep the
component's position, in the order in which the components are visited. -/
def stepAll (step : σ → α → σ × List β) : Nat → List σ → α → List σ × List (Nat × β)
  | _, [], _ => ([], [])
  | i, s :: ss, a =>
    let here := step s a
    let rest := stepAll step (i + 1) ss a
    (here.1 :: rest.1, here.2.map (fun b => (i, b)) ++ rest.2)

def outputsOf (i : Nat) (outs : List (Nat × β)) : List β :=
  outs.filterMap fun o => if o.1 = i then some o.2 else none

@[simp] theorem outputsOf_nil (i : Nat) : outputsOf i ([] : List (Nat × β)) = [] := rfl

@[simp] theorem outputsOf_append (i : Nat) (xs ys : List (Nat × β)) :
    outputsOf i (xs ++ ys) = outputsOf i xs ++ outputsOf i ys := by
  simp [outputsOf]

theorem outputsOf_tagged_self (i : Nat) (bs : List β) :
    outputsOf i (bs.map fun b => (i, b)) = bs := by
  simp [outputsOf, List.filterMap_map]

theorem outputsOf_tagged_other {i j : Nat} (h : j ≠ i) (bs : List β) :
    outputsOf i (bs.map fun b => (j, b)) = [] := by
  simp [outputsOf, h]

def broadcast (n : Nat) (b : β) : List (Nat × β) := (List.range n).map fun i => (i, b)

theorem outputsOf_broadcast (n i : Nat) (b : β) :
    outputsOf i (broadcast n b) = if i < n then [b] else [] := by
  induction n with
  | zero => rfl
  | succ n ih =>
    have split : broadcast (n + 1) b = broadcast n b ++ [(n, b)] := by
      simp [broadcast, List.range_succ]
    rw [split, outputsOf_append, ih]
    rcases Nat.lt_trichotomy i n with less | rfl | more
    · rw [if_pos less, if_pos (by omega)]
      simp [outputsOf, show n ≠ i by omega]
    · simp [outputsOf]
    · rw [if_neg (by omega), if_neg (by omega)]
      simp [outputsOf, show n ≠ i by omega]

theorem stepAll_states (step : σ → α → σ × List β) (i : Nat) (ss : List σ) (a : α) :
    (stepAll step i ss a).1 = ss.map fun s => (step s a).1 := by
  induction ss generalizing i with
  | nil => rfl
  | cons s ss ih => simp [stepAll, ih]

theorem stepAll_outputs_congr {α' : Type*} {f : σ → α → σ × List β} {g : σ → α' → σ × List β}
    {a : α} {a' : α'} (same : ∀ s, (f s a).2 = (g s a').2) (i : Nat) (ss : List σ) :
    (stepAll f i ss a).2 = (stepAll g i ss a').2 := by
  induction ss generalizing i with
  | nil => rfl
  | cons s ss ih => simp [stepAll, ih, same]

theorem stepAll_outputs_before (step : σ → α → σ × List β) {i j : Nat} (h : j < i)
    (ss : List σ) (a : α) : outputsOf j (stepAll step i ss a).2 = [] := by
  induction ss generalizing i with
  | nil => rfl
  | cons s ss ih =>
    simp [stepAll, outputsOf_tagged_other (Nat.ne_of_gt h), ih (Nat.lt_succ_of_lt h)]

theorem mem_stepAll_outputs {step : σ → α → σ × List β} {i : Nat} {ss : List σ} {a : α}
    {o : Nat × β} (mem : o ∈ (stepAll step i ss a).2) : ∃ s ∈ ss, o.2 ∈ (step s a).2 := by
  induction ss generalizing i with
  | nil => cases mem
  | cons s ss ih =>
    rcases List.mem_append.mp mem with own | other
    · obtain ⟨b, written, rfl⟩ := List.mem_map.mp own
      exact ⟨s, List.mem_cons_self .., written⟩
    · obtain ⟨u, listed, written⟩ := ih other
      exact ⟨u, List.mem_cons_of_mem _ listed, written⟩

/-- One round of the components writes, for each of them, what it would have written alone. -/
theorem stepAll_outputs (step : σ → α → σ × List β) (i k : Nat) {ss : List σ} {s : σ}
    (hk : ss[k]? = some s) (a : α) :
    outputsOf (i + k) (stepAll step i ss a).2 = (step s a).2 := by
  induction ss generalizing i k with
  | nil => simp at hk
  | cons x ss ih =>
    cases k with
    | zero =>
      have eq : x = s := by simpa using hk
      subst eq
      simp [stepAll, outputsOf_tagged_self, stepAll_outputs_before step (Nat.lt_succ_self i)]
    | succ k =>
      have rest := ih (i + 1) k (by simpa using hk)
      rw [show i + (k + 1) = i + 1 + k by omega]
      simp [stepAll, outputsOf_tagged_other (show i ≠ i + 1 + k by omega), rest]

/-- A run of the whole list is, component by component, the component's own run. -/
theorem emit_stepAll (step : σ → α → σ × List β) (as : List α) {ss : List σ} {k : Nat} {s : σ}
    (hk : ss[k]? = some s) :
    (emit (stepAll step 0) ss as).1[k]? = some (emit step s as).1 ∧
      outputsOf k (emit (stepAll step 0) ss as).2 = (emit step s as).2 := by
  induction as generalizing ss s with
  | nil => exact ⟨hk, rfl⟩
  | cons a as ih =>
    have next : (stepAll step 0 ss a).1[k]? = some (step s a).1 := by
      simp [stepAll_states, hk]
    have here := stepAll_outputs step 0 k hk a
    rw [Nat.zero_add] at here
    obtain ⟨state, outs⟩ := ih next
    exact ⟨state, by simp [here, outs]⟩

theorem getElem?_set_cases {xs : List α} {k j : Nat} {x y : α}
    (found : (xs.set k x)[j]? = some y) : (j = k ∧ y = x) ∨ (j ≠ k ∧ xs[j]? = some y) := by
  rw [List.getElem?_set] at found
  split at found
  next same =>
    split at found
    next => exact .inl ⟨same.symm, (Option.some.inj found).symm⟩
    next => cases found
  next apart => exact .inr ⟨Ne.symm apart, found⟩

theorem getElem?_snoc_cases {xs : List α} {j : Nat} {x y : α}
    (found : (xs ++ [x])[j]? = some y) : (j = xs.length ∧ y = x) ∨ xs[j]? = some y := by
  rcases Nat.lt_or_ge j xs.length with before | past
  · rw [List.getElem?_append_left before] at found
    exact .inr found
  · rw [List.getElem?_append_right past, List.getElem?_singleton] at found
    split at found
    next zero => exact .inl ⟨by omega, (Option.some.inj found).symm⟩
    next => cases found

end Runs
