import Mathlib.Data.List.Basic
import NetObserver.Runs

/-! Lists of stamped entries in strictly rising order of their stamps. -/

namespace Timeline

variable {α : Type*}

def Rising (stamp : α → Int) (xs : List α) : Prop := xs.Pairwise fun a b => stamp a < stamp b

/-- The stamp of the newest entry, zero while there is none. -/
def newest (stamp : α → Int) (xs : List α) : Int := (xs.getLast?.map stamp).getD 0

theorem rising_nil (stamp : α → Int) : Rising stamp [] := List.Pairwise.nil

theorem Rising.le_newest {stamp : α → Int} {xs : List α} (rising : Rising stamp xs) {x : α}
    (mem : x ∈ xs) : stamp x ≤ newest stamp xs := by
  rcases List.eq_nil_or_concat xs with rfl | ⟨front, last, rfl⟩
  · cases mem
  · rw [List.concat_eq_append] at rising mem ⊢
    have value : newest stamp (front ++ [last]) = stamp last := by simp [newest]
    rw [value]
    rcases List.mem_append.mp mem with old | new
    · exact Int.le_of_lt ((List.pairwise_append.mp rising).2.2 x old last (List.mem_singleton_self _))
    · exact Int.le_of_eq (congrArg stamp (List.mem_singleton.mp new))

theorem Rising.snoc {stamp : α → Int} {xs : List α} {x : α} (rising : Rising stamp xs)
    (later : newest stamp xs < stamp x) : Rising stamp (xs ++ [x]) := by
  refine List.pairwise_append.mpr ⟨rising, List.pairwise_singleton _ _, ?_⟩
  intro y mem z single
  rw [List.mem_singleton.mp single]
  exact Int.lt_of_le_of_lt (rising.le_newest mem) later

theorem Rising.eq_of_stamp_eq {stamp : α → Int} {xs : List α} (rising : Rising stamp xs) {x y : α}
    (memX : x ∈ xs) (memY : y ∈ xs) (same : stamp x = stamp y) : x = y := by
  induction rising with
  | nil => cases memX
  | cons first rest ih =>
    rcases List.mem_cons.mp memX with rfl | laterX
    · rcases List.mem_cons.mp memY with rfl | laterY
      · rfl
      · have less := first y laterY
        omega
    · rcases List.mem_cons.mp memY with rfl | laterY
      · have less := first x laterX
        omega
      · exact ih laterX laterY

theorem Rising.take_lt_drop {stamp : α → Int} {xs : List α} (rising : Rising stamp xs) {n : Nat}
    {x y : α} (memX : x ∈ xs.take n) (memY : y ∈ xs.drop n) : stamp x < stamp y := by
  rw [← List.take_append_drop n xs] at rising
  exact (List.pairwise_append.mp rising).2.2 x memX y memY

/-- An entry found in the whole list but by none of the tests behind a position stands before it. -/
theorem mem_take_of_find_drop_none {xs : List α} {p : α → Bool} {n : Nat} {x : α}
    (mem : x ∈ xs) (holds : p x = true) (none : (xs.drop n).find? p = none) : x ∈ xs.take n := by
  rw [← List.take_append_drop n xs] at mem
  rcases List.mem_append.mp mem with before | behind
  · exact before
  · exact absurd holds (List.find?_eq_none.mp none x behind)

/-- Every entry stands in the relation to the entries before it. -/
def EachAfter (P : List α → α → Prop) (xs : List α) : Prop :=
  ∀ i x, xs[i]? = some x → P (xs.take i) x

theorem eachAfter_nil (P : List α → α → Prop) : EachAfter P [] := fun i x found => by cases found

theorem EachAfter.snoc {P : List α → α → Prop} {xs : List α} {x : α} (each : EachAfter P xs)
    (last : P xs x) : EachAfter P (xs ++ [x]) := by
  intro i y found
  rcases Runs.getElem?_snoc_cases found with ⟨rfl, rfl⟩ | old
  · rw [List.take_left]
    exact last
  · have before : i < xs.length := (List.getElem?_eq_some_iff.mp old).1
    rw [List.take_append_of_le_length (Nat.le_of_lt before)]
    exact each i y old

section

variable {γ : Type*} (read : α → Option γ)

/-- The last reading in the list, what was found before while there is none. -/
def latest (found : γ) (xs : List α) : γ := (xs.filterMap read).getLast?.getD found

@[simp] theorem latest_nil (found : γ) : latest read found [] = found := rfl

theorem latest_append (found : γ) (xs ys : List α) :
    latest read found (xs ++ ys) = latest read (latest read found xs) ys := by
  simp only [latest, List.filterMap_append, List.getLast?_append]
  cases (ys.filterMap read).getLast? <;> rfl

/-- What is read twice over is read once. -/
theorem latest_latest (found : γ) (xs : List α) :
    latest read (latest read found xs) xs = latest read found xs := by
  unfold latest
  cases (xs.filterMap read).getLast? <;> rfl

/-- A reading that has part of `ys` already is completed by all of `ys`. -/
theorem latest_overlap {found : γ} {xs ys seen : List α} (known : xs <+: seen)
    (within : seen <+: xs ++ ys) :
    latest read (latest read found seen) ys = latest read found (xs ++ ys) := by
  obtain ⟨early, rfl⟩ := known
  obtain ⟨late, rfl⟩ := (List.prefix_append_right_inj xs).mp within
  rw [latest_append, latest_append, latest_append, latest_latest, latest_append]

end

end Timeline
