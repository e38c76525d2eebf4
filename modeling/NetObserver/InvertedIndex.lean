import Mathlib.Data.List.Basic
import Mathlib.Data.List.Induction
import Mathlib.Logic.Function.Basic

/-! An inverted index: the positions of the items under each key they name. -/

namespace InvertedIndex

variable {α κ : Type*} [DecidableEq κ]

def push (index : κ → Option (List Nat)) (key : κ) (i : Nat) : κ → Option (List Nat) :=
  Function.update index key (some ((index key).getD [] ++ [i]))

/-- A key that an item names again is not pushed again. -/
def addKeys (i : Nat) : List κ → List κ → (κ → Option (List Nat)) → κ → Option (List Nat)
  | [], _, index => index
  | key :: keys, seen, index =>
    if key ∈ seen then addKeys i keys seen index
    else addKeys i keys (key :: seen) (push index key i)

def build (keysOf : α → List κ) (items : List α) : κ → Option (List Nat) :=
  items.zipIdx.foldl (fun index item => addKeys item.2 (keysOf item.1) [] index) fun _ => none

theorem addKeys_eq (i : Nat) (keys seen : List κ) (index : κ → Option (List Nat)) (key : κ) :
    addKeys i keys seen index key =
      if key ∈ keys ∧ key ∉ seen then some ((index key).getD [] ++ [i]) else index key := by
  induction keys generalizing seen index with
  | nil => simp [addKeys]
  | cons first rest ih =>
    unfold addKeys
    by_cases again : first ∈ seen
    · rw [if_pos again, ih]
      by_cases same : key = first
      · subst same
        simp [again]
      · simp [same]
    · rw [if_neg again, ih]
      by_cases same : key = first
      · subst same
        simp [again, push]
      · simp [same, push, Function.update_of_ne same]

theorem build_concat (keysOf : α → List κ) (items : List α) (item : α) (key : κ) :
    build keysOf (items ++ [item]) key =
      if key ∈ keysOf item then some ((build keysOf items key).getD [] ++ [items.length])
      else build keysOf items key := by
  unfold build
  rw [List.zipIdx_append, List.foldl_append]
  simp [addKeys_eq]

theorem lt_of_mem_build {keysOf : α → List κ} {items : List α} {key : κ} {i : Nat}
    (mem : i ∈ (build keysOf items key).getD []) : i < items.length := by
  induction items using List.reverseRecOn with
  | nil => cases mem
  | append_singleton items item ih =>
    rw [build_concat] at mem
    rw [List.length_append, List.length_singleton]
    split at mem
    · rw [Option.getD_some] at mem
      rcases List.mem_append.mp mem with old | new
      · have below := ih old
        omega
      · rw [List.mem_singleton.mp new]
        omega
    · have below := ih mem
      omega

/-- The items at the positions under a key are the ones that name it, in their order. -/
theorem lookup_build (keysOf : α → List κ) (items : List α) (key : κ) :
    ((build keysOf items key).getD []).filterMap (fun i => items[i]?) =
      items.filter fun item => key ∈ keysOf item := by
  induction items using List.reverseRecOn with
  | nil => rfl
  | append_singleton items item ih =>
    have old : ((build keysOf items key).getD []).filterMap (fun i => (items ++ [item])[i]?) =
        ((build keysOf items key).getD []).filterMap fun i => items[i]? := by
      refine List.filterMap_congr fun i mem => ?_
      rw [List.getElem?_append_left (lt_of_mem_build mem)]
    rw [build_concat, List.filter_append]
    split
    next named =>
      rw [Option.getD_some, List.filterMap_append, old, ih]
      simp [named]
    next other =>
      rw [old, ih]
      simp [other]

end InvertedIndex
