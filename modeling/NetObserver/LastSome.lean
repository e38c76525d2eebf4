import Mathlib.Data.List.Basic
import Mathlib.Data.List.Induction

/-! The last value that the members of a list give, and the folds in which each member may replace
the value so far: the last that does decides. -/

namespace LastSome

variable {α β γ σ : Type*}

/-- What the last member that gives anything gives. -/
def lastSome? (f : α → Option β) (xs : List α) : Option β := xs.reverse.findSome? f

variable {f : α → Option β} {xs ys : List α} {x : α}

@[simp] theorem lastSome?_append : lastSome? f (xs ++ ys) = (lastSome? f ys).or (lastSome? f xs) := by
  rw [lastSome?, List.reverse_append, List.findSome?_append]
  rfl

@[simp] theorem lastSome?_singleton : lastSome? f [x] = f x := by
  rw [lastSome?, List.reverse_singleton, List.findSome?_singleton]

theorem lastSome?_concat : lastSome? f (xs ++ [x]) = (f x).or (lastSome? f xs) := by
  rw [lastSome?_append, lastSome?_singleton]

theorem lastSome?_cons : lastSome? f (x :: xs) = (lastSome? f xs).or (f x) := by
  rw [← List.singleton_append, lastSome?_append, lastSome?_singleton]

/-- The last value comes from the member behind which no other gives one. -/
theorem lastSome?_eq_some_iff {b : β} :
    lastSome? f xs = some b ↔
      ∃ front x back, xs = front ++ x :: back ∧ f x = some b ∧ ∀ y ∈ back, f y = none := by
  constructor
  · intro last
    obtain ⟨back, x, front, split, given, silent⟩ := List.findSome?_eq_some_iff.mp last
    refine ⟨front.reverse, x, back.reverse, ?_, given, fun y mem => silent y (List.mem_reverse.mp mem)⟩
    rw [← List.reverse_reverse xs, split, List.reverse_append, List.reverse_cons, List.append_assoc,
      List.singleton_append]
  · rintro ⟨front, x, back, rfl, given, silent⟩
    have none_ : lastSome? f back = none :=
      List.findSome?_eq_none_iff.mpr fun y mem => silent y (List.mem_reverse.mp mem)
    rw [lastSome?_append, lastSome?_cons, none_, given]
    rfl

theorem lastSome?_eq_none_iff : lastSome? f xs = none ↔ ∀ x ∈ xs, f x = none := by
  rw [lastSome?, List.findSome?_eq_none_iff]
  exact ⟨fun silent x mem => silent x (List.mem_reverse.mpr mem),
    fun silent x mem => silent x (List.mem_reverse.mp mem)⟩

/-- A fold in which a member that gives something replaces the value so far. -/
theorem foldl_getD (f : α → Option β) (xs : List α) (init : β) :
    xs.foldl (fun old x => (f x).getD old) init = (lastSome? f xs).getD init := by
  induction xs using List.reverseRecOn with
  | nil => rfl
  | append_singleton xs x ih =>
    rw [List.foldl_concat, ih, lastSome?_concat]
    cases f x with
    | none => rfl
    | some b => rfl

/-- A fold that coalesces: what a member gives, else the value so far. -/
theorem foldl_or (f : α → Option β) (xs : List α) (init : Option β) :
    xs.foldl (fun old x => (f x).or old) init = (lastSome? f xs).or init := by
  induction xs using List.reverseRecOn with
  | nil => rfl
  | append_singleton xs x ih => rw [List.foldl_concat, ih, lastSome?_concat, Option.or_assoc]

/-- A field that some members replace and no member changes otherwise. -/
theorem field_foldl (field : σ → β) {step : σ → α → σ}
    (read : ∀ s x, field (step s x) = (f x).getD (field s)) (xs : List α) (s : σ) :
    field (xs.foldl step s) = (lastSome? f xs).getD (field s) := by
  have folded : xs.foldl (fun old x => (f x).getD old) (field s) = field (xs.foldl step s) :=
    List.foldl_hom field fun s x => (read s x).symm
  rw [← folded, foldl_getD]

theorem field_foldl_or (field : σ → Option β) {step : σ → α → σ}
    (read : ∀ s x, field (step s x) = (f x).or (field s)) (xs : List α) (s : σ) :
    field (xs.foldl step s) = (lastSome? f xs).or (field s) := by
  have folded : xs.foldl (fun old x => (f x).or old) (field s) = field (xs.foldl step s) :=
    List.foldl_hom field fun s x => (read s x).symm
  rw [← folded, foldl_or]

/-- A field that no member changes. -/
theorem field_foldl_same (field : σ → β) {step : σ → α → σ}
    (same : ∀ s x, field (step s x) = field s) (xs : List α) (s : σ) :
    field (xs.foldl step s) = field s := by
  induction xs generalizing s with
  | nil => rfl
  | cons x xs ih => rw [List.foldl_cons, ih, same]

theorem lastSome?_option_map (g : β → γ) (xs : List α) :
    lastSome? (fun x => (f x).map g) xs = (lastSome? f xs).map g := by
  induction xs using List.reverseRecOn with
  | nil => rfl
  | append_singleton xs x ih =>
    rw [lastSome?_concat, lastSome?_concat, ih]
    cases f x with
    | none => rfl
    | some b => rfl

/-- A field that each member of a kind replaces by its value, decoded or not: at the end it is the
decoding of the last such member's value. -/
theorem field_foldl_decode (field : σ → Option β) {step : σ → α → σ} {kind : α → Prop}
    [DecidablePred kind] {value : α → γ} {decode : γ → Option β}
    (read : ∀ s x, field (step s x) = if kind x then decode (value x) else field s) (xs : List α)
    {s : σ} (unset : field s = none) : field (xs.foldl step s) =
      (lastSome? (fun x => if kind x then some (value x) else none) xs).bind decode := by
  have replaced (s : σ) (x : α) : field (step s x) =
      ((if kind x then some (value x) else none).map decode).getD (field s) := by
    rw [read]
    split <;> rfl
  rw [field_foldl field replaced, lastSome?_option_map, unset]
  cases lastSome? (fun x => if kind x then some (value x) else none) xs with
  | none => rfl
  | some last => rfl

theorem lastSome?_map (g : γ → α) (zs : List γ) :
    lastSome? f (zs.map g) = lastSome? (fun z => f (g z)) zs := by
  rw [lastSome?, ← List.map_reverse, List.findSome?_map]
  rfl

end LastSome
