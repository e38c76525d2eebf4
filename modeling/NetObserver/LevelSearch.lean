import Mathlib.Data.List.Nodup

/-! A graph searched level by level to a bounded depth, each vertex found once. -/

namespace LevelSearch

variable {α : Type*} [DecidableEq α]

/-- The vertices not visited before, each once. -/
def fresh (visited : List α) : List α → List α
  | [] => []
  | x :: xs => if x ∈ visited then fresh visited xs else x :: fresh (x :: visited) xs

/-- What `levels` levels find from a frontier on, in the order in which it is found. -/
def found (next : α → List α) : Nat → List α → List α → List α
  | 0, _, _ => []
  | levels + 1, visited, frontier =>
    let new := fresh visited frontier
    new ++ found next levels (visited ++ new) (new.flatMap next)

/-- A vertex that some walk of so many edges leads to from the frontier. -/
inductive At (next : α → List α) (frontier : List α) : Nat → α → Prop
  | start {x : α} (mem : x ∈ frontier) : At next frontier 0 x
  | step {k : Nat} {x y : α} (walk : At next frontier k x) (edge : y ∈ next x) :
      At next frontier (k + 1) y

variable {next : α → List α} {visited frontier other : List α} {x : α} {k n : Nat}

theorem mem_fresh : x ∈ fresh visited frontier ↔ x ∈ frontier ∧ x ∉ visited := by
  induction frontier generalizing visited with
  | nil => simp [fresh]
  | cons y ys ih =>
    rw [fresh]
    split
    next seen =>
      rw [ih, List.mem_cons]
      constructor
      · rintro ⟨mem, unseen⟩
        exact ⟨.inr mem, unseen⟩
      · rintro ⟨rfl | mem, unseen⟩
        · exact absurd seen unseen
        · exact ⟨mem, unseen⟩
    next unseen =>
      rw [List.mem_cons, ih, List.mem_cons, List.mem_cons, not_or]
      constructor
      · rintro (rfl | ⟨mem, _, new⟩)
        · exact ⟨.inl rfl, unseen⟩
        · exact ⟨.inr mem, new⟩
      · rintro ⟨here | mem, new⟩
        · exact .inl here
        · by_cases same : x = y
          · exact .inl same
          · exact .inr ⟨mem, same, new⟩

theorem fresh_nodup (visited frontier : List α) : (fresh visited frontier).Nodup := by
  induction frontier generalizing visited with
  | nil => exact List.nodup_nil
  | cons y ys ih =>
    rw [fresh]
    split
    next => exact ih visited
    next =>
      rw [List.nodup_cons]
      exact ⟨fun mem => (mem_fresh.mp mem).2 List.mem_cons_self, ih (y :: visited)⟩

theorem not_visited_of_found (mem : x ∈ found next n visited frontier) : x ∉ visited := by
  induction n generalizing visited frontier with
  | zero => exact absurd mem List.not_mem_nil
  | succ n ih =>
    rcases List.mem_append.mp mem with here | later
    · exact (mem_fresh.mp here).2
    · exact fun seen => ih later (List.mem_append_left _ seen)

/-- No vertex is found twice. -/
theorem found_nodup (next : α → List α) (n : Nat) (visited frontier : List α) :
    (found next n visited frontier).Nodup := by
  induction n generalizing visited frontier with
  | zero => exact List.nodup_nil
  | succ n ih =>
    rw [found, List.nodup_append]
    refine ⟨fresh_nodup visited frontier, ih _ _, ?_⟩
    rintro x here y later rfl
    exact not_visited_of_found later (List.mem_append_right _ here)

theorem found_nil (next : α → List α) (n : Nat) (visited : List α) :
    found next n visited [] = [] := by
  induction n generalizing visited with
  | zero => rfl
  | succ n ih => simp only [found, fresh, List.flatMap_nil, List.nil_append, ih]

omit [DecidableEq α] in
/-- A walk's first edge taken off. -/
theorem at_succ_iff : At next frontier (k + 1) x ↔ At next (frontier.flatMap next) k x := by
  constructor
  · intro walk
    induction k generalizing x with
    | zero =>
      cases walk with
      | step walk edge =>
        cases walk with
        | start mem => exact .start (List.mem_flatMap.mpr ⟨_, mem, edge⟩)
    | succ k ih =>
      cases walk with
      | step walk edge => exact .step (ih walk) edge
  · intro walk
    induction walk with
    | start mem =>
      obtain ⟨y, here, edge⟩ := List.mem_flatMap.mp mem
      exact .step (.start here) edge
    | step _ edge ih => exact .step ih edge

omit [DecidableEq α] in
theorem At.mono (walk : At next frontier k x) (within : ∀ y ∈ frontier, y ∈ other) :
    At next other k x := by
  induction walk with
  | start mem => exact .start (within _ mem)
  | step _ edge ih => exact .step ih edge

/-- A walk that leaves a set which it can leave through a frontier only crosses that frontier. -/
theorem At.crosses (walk : At next visited k x)
    (closed : ∀ v ∈ visited, ∀ w ∈ next v, w ∈ visited ∨ w ∈ frontier) (outside : x ∉ visited) :
    ∃ j < k, At next frontier j x := by
  induction walk with
  | start mem => exact absurd mem outside
  | @step k x y walk edge ih =>
    by_cases inside : x ∈ visited
    · rcases closed x inside y edge with back | out
      · exact absurd back outside
      · exact ⟨0, Nat.succ_pos k, .start out⟩
    · obtain ⟨j, short, cross⟩ := ih inside
      exact ⟨j + 1, Nat.succ_lt_succ short, .step cross edge⟩

/-- What is found is what a walk shorter than the depth leads to and was not visited before: a
walk through a vertex visited before is no shorter. -/
theorem mem_found_iff (closed : ∀ v ∈ visited, ∀ w ∈ next v, w ∈ visited ∨ w ∈ frontier) :
    x ∈ found next n visited frontier ↔ x ∉ visited ∧ ∃ k < n, At next frontier k x := by
  induction n generalizing visited frontier with
  | zero => simp [found]
  | succ n ih =>
    have inner : ∀ v ∈ visited ++ fresh visited frontier, ∀ w ∈ next v,
        w ∈ visited ++ fresh visited frontier ∨ w ∈ (fresh visited frontier).flatMap next := by
      intro v mem w edge
      rcases List.mem_append.mp mem with old | new
      · left
        by_cases seen : w ∈ visited
        · exact List.mem_append_left _ seen
        · have out := (closed v old w edge).resolve_left seen
          exact List.mem_append_right _ (mem_fresh.mpr ⟨out, seen⟩)
      · exact .inr (List.mem_flatMap.mpr ⟨v, new, edge⟩)
    rw [found, List.mem_append, ih inner, List.mem_append, not_or]
    constructor
    · rintro (new | ⟨⟨unseen, _⟩, k, short, walk⟩)
      · obtain ⟨mem, unseen⟩ := mem_fresh.mp new
        exact ⟨unseen, 0, Nat.succ_pos n, .start mem⟩
      · refine ⟨unseen, k + 1, Nat.succ_lt_succ short, at_succ_iff.mpr ?_⟩
        refine walk.mono ?_
        intro y mem
        obtain ⟨v, new, edge⟩ := List.mem_flatMap.mp mem
        exact List.mem_flatMap.mpr ⟨v, (mem_fresh.mp new).1, edge⟩
    · rintro ⟨unseen, k, short, walk⟩
      by_cases new : x ∈ fresh visited frontier
      · exact .inl new
      · have outside : x ∉ visited ++ fresh visited frontier := by
          rw [List.mem_append, not_or]
          exact ⟨unseen, new⟩
        have from_ : At next (visited ++ fresh visited frontier) k x := by
          refine walk.mono ?_
          intro y mem
          by_cases seen : y ∈ visited
          · exact List.mem_append_left _ seen
          · exact List.mem_append_right _ (mem_fresh.mpr ⟨mem, seen⟩)
        obtain ⟨j, shorter, cross⟩ := from_.crosses inner outside
        exact .inr ⟨⟨unseen, new⟩, j, by omega, cross⟩

end LevelSearch
