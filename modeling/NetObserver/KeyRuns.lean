import Mathlib.Data.List.SplitBy
import Mathlib.Data.List.TakeWhile

/-! A list cut into its maximal runs of one key. -/

namespace KeyRuns

variable {α κ : Type*} [DecidableEq κ] (key : α → κ)

def runsBy (l : List α) : List (List α) := l.splitBy fun a b => key a == key b

@[simp] theorem runsBy_nil : runsBy key [] = [] := rfl

theorem flatten_runsBy (l : List α) : (runsBy key l).flatten = l := List.flatten_splitBy _ l

variable {key}

/-- One run and the next have different keys. -/
def Apart (key : α → κ) (runs : List (List α)) : Prop :=
  (runs.map fun run => run.head?.map key).IsChain (· ≠ ·)

theorem chain_iff_same_key {run : List α} :
    (run.IsChain fun a b => (key a == key b) = true) ↔ ∀ a ∈ run, ∀ b ∈ run, key a = key b := by
  induction run with
  | nil => simp
  | cons a run ih =>
    cases run with
    | nil => simp
    | cons b run =>
      rw [List.isChain_cons_cons, ih, beq_iff_eq]
      constructor
      · rintro ⟨headed, same⟩ x inRun y inRun'
        have toHead : ∀ z ∈ a :: b :: run, key z = key b := by
          intro z listed
          rcases List.mem_cons.mp listed with rfl | later
          · exact headed
          · exact same z later b List.mem_cons_self
        exact (toHead x inRun).trans (toHead y inRun').symm
      · intro same
        refine ⟨same a List.mem_cons_self b (by simp), ?_⟩
        intro x inRun y inRun'
        exact same x (List.mem_cons_of_mem a inRun) y (List.mem_cons_of_mem a inRun')

/-- The runs are the one cut of the list into parts of one key each, neighbours apart. -/
theorem runsBy_eq_iff {l : List α} {runs : List (List α)} :
    runsBy key l = runs ↔ l = runs.flatten ∧ [] ∉ runs ∧
      (∀ run ∈ runs, ∀ a ∈ run, ∀ b ∈ run, key a = key b) ∧ Apart key runs := by
  unfold runsBy Apart
  rw [List.splitBy_eq_iff]
  refine and_congr_right fun _ => and_congr_right fun full => ?_
  simp only [chain_iff_same_key]
  refine and_congr_right fun same => ?_
  rw [List.isChain_map]
  refine List.IsChain.iff_of_mem_imp ?_
  intro run next inRuns inRuns'
  have some_run : run ≠ [] := fun gone => full (gone ▸ inRuns)
  have some_next : next ≠ [] := fun gone => full (gone ▸ inRuns')
  have sameKey : key (run.getLast some_run) = key (run.head some_run) :=
    same run inRuns _ (List.getLast_mem _) _ (List.head_mem _)
  rw [List.head?_eq_some_head some_run, List.head?_eq_some_head some_next]
  simp [some_run, some_next, sameKey]

theorem ne_nil_of_mem_runsBy {l run : List α} (cut : run ∈ runsBy key l) : run ≠ [] :=
  List.ne_nil_of_mem_splitBy cut

theorem same_key_of_mem_runsBy {l run : List α} (cut : run ∈ runsBy key l) {a b : α}
    (ha : a ∈ run) (hb : b ∈ run) : key a = key b :=
  (runsBy_eq_iff.mp rfl).2.2.1 run cut a ha b hb

theorem head?_of_runsBy {l run : List α} (first : run ∈ (runsBy key l).head?) :
    run.head? = l.head? := by
  have all := flatten_runsBy key l
  cases runs : runsBy key l with
  | nil => simp [runs] at first
  | cons first_run rest =>
    obtain rfl : first_run = run := by simpa [runs] using first
    have some_run := ne_nil_of_mem_runsBy (runs ▸ List.mem_cons_self : first_run ∈ runsBy key l)
    rw [← all, runs, List.flatten_cons, List.head?_append_of_ne_nil _ some_run]

/-- The first run is the first element with all that follow it under its key. -/
theorem runsBy_cons (a : α) (l : List α) :
    runsBy key (a :: l) = (a :: l.takeWhile fun b => key b == key a) ::
      runsBy key (l.dropWhile fun b => key b == key a) := by
  have toHead : ∀ b ∈ a :: l.takeWhile (fun b => key b == key a), key b = key a := by
    intro b listed
    rcases List.mem_cons.mp listed with rfl | taken
    · rfl
    · simpa using List.mem_takeWhile_imp taken
  rw [runsBy_eq_iff]
  refine ⟨?_, ?_, ?_, ?_⟩
  · rw [List.flatten_cons, flatten_runsBy, List.cons_append, List.takeWhile_append_dropWhile]
  · intro listed
    rcases List.mem_cons.mp listed with gone | later
    · cases gone
    · exact ne_nil_of_mem_runsBy later rfl
  · intro run listed
    rcases List.mem_cons.mp listed with rfl | later
    · intro b hb c hc
      exact (toHead b hb).trans (toHead c hc).symm
    · intro b hb c hc
      exact same_key_of_mem_runsBy later hb hc
  · have rest : Apart key (runsBy key (l.dropWhile fun b => key b == key a)) :=
      (runsBy_eq_iff.mp rfl).2.2.2
    unfold Apart at rest ⊢
    rw [List.map_cons, List.isChain_cons]
    refine ⟨?_, rest⟩
    intro next headed
    rw [List.head?_map] at headed
    obtain ⟨run, first, rfl⟩ := Option.map_eq_some_iff.mp headed
    rw [head?_of_runsBy first, List.head?_cons, Option.map_some]
    cases left : l.dropWhile fun b => key b == key a with
    | nil => simp
    | cons b _ =>
      have stops := List.head_dropWhile_not (fun b => key b == key a) (l := l) (by simp [left])
      simp only [left, List.head_cons, beq_eq_false_iff_ne] at stops
      simpa using stops.symm

/-- The runs a front of the list holds in full are those of the list. -/
theorem take_runsBy_of_prefix {front l : List α} (isFront : front <+: l) {n : Nat}
    (full : ((runsBy key l).take n).flatten <+: front) :
    (runsBy key front).take n = (runsBy key l).take n := by
  induction n generalizing front l with
  | zero => simp
  | succ n ih =>
    cases l with
    | nil =>
      obtain rfl := List.prefix_nil.mp isFront
      rfl
    | cons a l =>
      rw [runsBy_cons, List.take_succ_cons, List.flatten_cons] at full
      obtain ⟨after, cut⟩ := full
      rw [List.cons_append, List.cons_append, List.append_assoc] at cut
      obtain ⟨mid, midIs⟩ : ∃ mid, mid =
        ((runsBy key (l.dropWhile fun b => key b == key a)).take n).flatten ++ after := ⟨_, rfl⟩
      rw [← midIs] at cut
      subst cut
      have ofKey : ∀ b ∈ l.takeWhile (fun b => key b == key a), (key b == key a) = true :=
        fun b taken => List.mem_takeWhile_imp (p := fun b => key b == key a) taken
      have isMid : mid <+: l.dropWhile fun b => key b == key a := by
        have whole : l.takeWhile (fun b => key b == key a) ++ mid <+:
            l.takeWhile (fun b => key b == key a) ++ l.dropWhile (fun b => key b == key a) := by
          rw [List.takeWhile_append_dropWhile]
          exact (List.cons_prefix_cons.mp isFront).2
        exact (List.prefix_append_right_inj _).mp whole
      have stopped : mid.takeWhile (fun b => key b == key a) = [] := by
        cases mid with
        | nil => rfl
        | cons c mid =>
          obtain ⟨rest, dropped⟩ := isMid
          have stops := List.head_dropWhile_not (fun b => key b == key a) (l := l)
            (by simp [← dropped])
          simp only [← dropped, List.cons_append, List.head_cons] at stops
          exact List.takeWhile_cons_of_neg (by simp [stops])
      have dropped : mid.dropWhile (fun b => key b == key a) = mid := by
        have whole := List.takeWhile_append_dropWhile (p := fun b => key b == key a) (l := mid)
        rw [stopped] at whole
        exact whole
      rw [runsBy_cons, runsBy_cons, List.takeWhile_append_of_pos ofKey, stopped,
        List.dropWhile_append_of_pos ofKey, dropped, List.append_nil, List.take_succ_cons,
        List.take_succ_cons, ih isMid ⟨after, midIs.symm⟩]

/-- An element taken out of a run of several leaves every cut where it was. -/
theorem runsBy_erase {l : List α} {before after : List (List α)} {front back : List α} {a : α}
    (cut : runsBy key l = before ++ (front ++ a :: back) :: after) (several : front ++ back ≠ []) :
    runsBy key (before.flatten ++ (front ++ back) ++ after.flatten) =
      before ++ (front ++ back) :: after := by
  obtain ⟨-, full, same, apart⟩ := runsBy_eq_iff.mp cut
  have sameRun := same _ (List.mem_append_right before List.mem_cons_self)
  rw [runsBy_eq_iff]
  refine ⟨by simp, ?_, ?_, ?_⟩
  · intro listed
    rcases List.mem_append.mp listed with inBefore | rest
    · exact full (List.mem_append_left _ inBefore)
    · rcases List.mem_cons.mp rest with gone | inAfter
      · exact several gone.symm
      · exact full (List.mem_append_right _ (List.mem_cons_of_mem _ inAfter))
  · intro run listed
    rcases List.mem_append.mp listed with inBefore | rest
    · exact same run (List.mem_append_left _ inBefore)
    · rcases List.mem_cons.mp rest with rfl | inAfter
      · intro b hb c hc
        have kept : ∀ d ∈ front ++ back, d ∈ front ++ a :: back := by
          intro d hd
          rcases List.mem_append.mp hd with left | right
          · exact List.mem_append_left _ left
          · exact List.mem_append_right _ (List.mem_cons_of_mem a right)
        exact sameRun b (kept b hb) c (kept c hc)
      · exact same run (List.mem_append_right _ (List.mem_cons_of_mem _ inAfter))
  · have sameHead : (front ++ back).head?.map key = (front ++ a :: back).head?.map key := by
      cases front with
      | cons b _ => rfl
      | nil =>
        cases back with
        | nil => exact absurd rfl several
        | cons b _ =>
          exact congrArg some (sameRun b (by simp) a (by simp))
    unfold Apart at apart ⊢
    rw [List.map_append, List.map_cons] at apart ⊢
    rw [sameHead]
    exact apart

end KeyRuns
