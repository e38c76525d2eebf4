import Mathlib.Data.List.Basic

/-! A stream cut at a delimiter: the complete segments, and the remainder behind the last one. -/

namespace Delimited

variable {α : Type*} [DecidableEq α]

def cut (d : α) : List α → List (List α) × List α
  | [] => ([], [])
  | x :: xs =>
    match cut d xs with
    | (segments, rest) =>
      if x = d then ([] :: segments, rest)
      else
        match segments with
        | [] => ([], x :: rest)
        | s :: more => ((x :: s) :: more, rest)

/-- What a run without the delimiter put in front does to a cut. -/
def prepend (run : List α) : List (List α) × List α → List (List α) × List α
  | ([], rest) => ([], run ++ rest)
  | (s :: more, rest) => ((run ++ s) :: more, rest)

theorem cut_cons_of_ne {d x : α} (ne : x ≠ d) (xs : List α) :
    cut d (x :: xs) = prepend [x] (cut d xs) := by
  rcases eq : cut d xs with ⟨_ | ⟨s, more⟩, rest⟩ <;> simp [cut, eq, ne, prepend]

theorem cut_delimiter (d : α) (xs : List α) :
    cut d (d :: xs) = ([] :: (cut d xs).1, (cut d xs).2) := by
  simp [cut]

omit [DecidableEq α] in
theorem prepend_prepend (xs ys : List α) (c : List (List α) × List α) :
    prepend xs (prepend ys c) = prepend (xs ++ ys) c := by
  rcases c with ⟨_ | ⟨s, more⟩, rest⟩ <;> simp [prepend]

theorem cut_append_of_free {d : α} {run : List α} (free : d ∉ run) (xs : List α) :
    cut d (run ++ xs) = prepend run (cut d xs) := by
  induction run with
  | nil =>
    rw [List.nil_append]
    rcases cut d xs with ⟨_ | ⟨s, more⟩, rest⟩ <;> rfl
  | cons x run ih =>
    have other : d ≠ x := List.ne_of_not_mem_cons free
    have later : d ∉ run := List.not_mem_of_not_mem_cons free
    rw [List.cons_append, cut_cons_of_ne (Ne.symm other), ih later, prepend_prepend]
    rfl

theorem rest_free (d : α) (xs : List α) : d ∉ (cut d xs).2 := by
  induction xs with
  | nil => exact List.not_mem_nil
  | cons x xs ih =>
    by_cases same : x = d
    · rw [same, cut_delimiter]
      exact ih
    · rw [cut_cons_of_ne same]
      rcases eq : cut d xs with ⟨_ | ⟨s, more⟩, rest⟩
      · rw [eq] at ih
        exact List.not_mem_cons_of_ne_of_not_mem (Ne.symm same) ih
      · rw [eq] at ih
        exact ih

/-- A stream read in two pieces: the second is cut behind the remainder of the first. -/
theorem cut_append (d : α) (xs ys : List α) :
    cut d (xs ++ ys) = ((cut d xs).1 ++ (cut d ((cut d xs).2 ++ ys)).1,
      (cut d ((cut d xs).2 ++ ys)).2) := by
  induction xs with
  | nil => rfl
  | cons x xs ih =>
    by_cases same : x = d
    · rw [List.cons_append, same, cut_delimiter, cut_delimiter, ih]
      rfl
    · rw [List.cons_append, cut_cons_of_ne same, cut_cons_of_ne same, ih]
      rcases eq : cut d xs with ⟨_ | ⟨s, more⟩, rest⟩
      · have step := cut_cons_of_ne same (rest ++ ys)
        simp only [prepend, List.nil_append, List.cons_append]
        rw [step]
        rfl
      · rfl

/-- Nothing, or a stretch the delimiter ends: what may stand in front of a segment. -/
def Ended (d : α) (front : List α) : Prop := ∀ x ∈ front.getLast?, x = d

/-- A whole segment of the stream: from its start or a delimiter up to the next delimiter. -/
def IsSegment (d : α) (xs : List α) (start : Nat) (s : List α) : Prop :=
  ∃ front back, xs = front ++ (s ++ d :: back) ∧ front.length = start ∧ Ended d front ∧ d ∉ s

/-- The segments of a cut with the places where they start. -/
def placed : Nat → List (List α) → List (Nat × List α)
  | _, [] => []
  | start, s :: more => (start, s) :: placed (start + s.length + 1) more

omit [DecidableEq α] in
theorem placed_segments (start : Nat) (segments : List (List α)) :
    (placed start segments).map Prod.snd = segments := by
  induction segments generalizing start with
  | nil => rfl
  | cons s more ih => rw [placed, List.map_cons, ih]

omit [DecidableEq α] in
theorem ended_nil (d : α) : Ended d [] := by
  intro x last
  cases last

omit [DecidableEq α] in
theorem ended_snoc (d : α) (front : List α) : Ended d (front ++ [d]) := by
  intro x last
  rw [List.getLast?_concat] at last
  exact (Option.some.inj last).symm

/-- The first segment of a cut, and the stream behind it cut on its own. -/
theorem cut_eq_cons {d : α} {xs s : List α} {more : List (List α)} (first : (cut d xs).1 = s :: more) :
    ∃ ys, xs = s ++ d :: ys ∧ cut d ys = (more, (cut d xs).2) ∧ d ∉ s := by
  induction xs generalizing s with
  | nil => cases first
  | cons x xs ih =>
    by_cases same : x = d
    · rw [same, cut_delimiter] at first ⊢
      obtain ⟨rfl, rfl⟩ := List.cons.inj first
      exact ⟨xs, rfl, rfl, List.not_mem_nil⟩
    · rw [cut_cons_of_ne same] at first ⊢
      rcases eq : cut d xs with ⟨_ | ⟨s', more'⟩, rest⟩
      · rw [eq] at first
        cases first
      · rw [eq] at first ih
        obtain ⟨rfl, rfl⟩ := List.cons.inj first
        obtain ⟨ys, rfl, behind, free⟩ := ih rfl
        refine ⟨ys, rfl, behind, ?_⟩
        exact List.not_mem_cons_of_ne_of_not_mem (Ne.symm same) free

theorem cut_eq_nil {d : α} {xs : List α} (none : (cut d xs).1 = []) : (cut d xs).2 = xs := by
  induction xs with
  | nil => rfl
  | cons x xs ih =>
    by_cases same : x = d
    · rw [same, cut_delimiter] at none
      cases none
    · rw [cut_cons_of_ne same] at none ⊢
      rcases eq : cut d xs with ⟨_ | ⟨s, more⟩, rest⟩
      · rw [eq] at ih
        rw [← ih rfl]
        rfl
      · rw [eq] at none
        cases none

/-- Behind a place where a segment may start, all segments of a cut are whole. -/
theorem placed_isSegment {d : α} {front : List α} (ended : Ended d front) (xs : List α) :
    ∀ p ∈ placed front.length (cut d xs).1, IsSegment d (front ++ xs) p.1 p.2 := by
  generalize eq : (cut d xs).1 = segments
  induction segments generalizing front xs with
  | nil =>
    intro p listed
    cases listed
  | cons s more ih =>
    obtain ⟨ys, rfl, behind, free⟩ := cut_eq_cons eq
    have later := ih (ended_snoc d (front ++ s)) ys (by rw [behind])
    have length : (front ++ s ++ [d]).length = front.length + s.length + 1 := by
      simp only [List.length_append, List.length_singleton]
    have stream : front ++ s ++ [d] ++ ys = front ++ (s ++ d :: ys) := by simp
    rw [length, stream] at later
    intro p listed
    rcases List.mem_cons.mp listed with rfl | listed
    · exact ⟨front, ys, rfl, rfl, ended, free⟩
    · exact later p listed

/-- What a cut leaves begins where a segment may, once it has found a delimiter. -/
theorem rest_ended {d : α} {xs : List α} (found : (cut d xs).1 ≠ []) :
    ∃ front, xs = front ++ (cut d xs).2 ∧ front.getLast? = some d := by
  generalize eq : (cut d xs).1 = segments
  induction segments generalizing xs with
  | nil => exact absurd eq found
  | cons s more ih =>
    obtain ⟨ys, split, behind, _⟩ := cut_eq_cons eq
    by_cases last : more = []
    · have all := cut_eq_nil (show (cut d ys).1 = [] by rw [behind, last])
      rw [behind] at all
      exact ⟨s ++ [d], split.trans (by rw [← all]; simp), List.getLast?_concat⟩
    · have segments : (cut d ys).1 = more := by rw [behind]
      obtain ⟨front, whole, ends⟩ := ih (segments ▸ last) segments
      rw [behind] at whole
      refine ⟨s ++ d :: front, split.trans (by rw [whole]; simp), ?_⟩
      rw [List.getLast?_append, List.getLast?_cons, ends]
      rfl

theorem rest_length_le (d : α) (xs : List α) : (cut d xs).2.length ≤ xs.length := by
  by_cases found : (cut d xs).1 = []
  · exact Nat.le_of_eq (by rw [cut_eq_nil found])
  · obtain ⟨front, split, _⟩ := rest_ended found
    have lengths := congrArg List.length split
    rw [List.length_append] at lengths
    omega

end Delimited
