import Mathlib.Data.List.Basic
import Mathlib.Data.List.Nodup

/-! Episodes that open and close under a key, at most one of them open at a time. -/

namespace Episodes

variable {κ τ : Type*}

inductive Event (κ τ : Type*) where
  | opens (key : κ) (stamp : τ)
  | closes (key : κ) (stamp : τ)

/-- Opens and closes alternate: each close names the key just opened, at no earlier stamp.
`pending` is the episode open before the first event. -/
inductive Alternates [LE τ] : Option (κ × τ) → List (Event κ τ) → Option (κ × τ) → Prop where
  | done (pending : Option (κ × τ)) : Alternates pending [] pending
  | opens {key : κ} {stamp : τ} {events : List (Event κ τ)} {after : Option (κ × τ)}
      (rest : Alternates (some (key, stamp)) events after) :
      Alternates none (.opens key stamp :: events) after
  | closes {key : κ} {opened closed : τ} {events : List (Event κ τ)} {after : Option (κ × τ)}
      (order : opened ≤ closed) (rest : Alternates none events after) :
      Alternates (some (key, opened)) (.closes key closed :: events) after

theorem Alternates.append [LE τ] {before mid after : Option (κ × τ)} {xs ys : List (Event κ τ)}
    (first : Alternates before xs mid) (second : Alternates mid ys after) :
    Alternates before (xs ++ ys) after := by
  induction first with
  | done => exact second
  | opens rest ih => exact .opens (ih second)
  | closes order rest ih => exact .closes order (ih second)

def openedKeys (events : List (Event κ τ)) : List κ :=
  events.filterMap fun
    | .opens key _ => some key
    | .closes _ _ => none

def openedStamps (events : List (Event κ τ)) : List τ :=
  events.filterMap fun
    | .opens _ stamp => some stamp
    | .closes _ _ => none

def closedKeys (events : List (Event κ τ)) : List κ :=
  events.filterMap fun
    | .opens _ _ => none
    | .closes key _ => some key

/-- What was closed is what was open at first and then opened, in that order, but for the
episode still open at the end. -/
theorem Alternates.keys [LE τ] {before after : Option (κ × τ)} {events : List (Event κ τ)}
    (h : Alternates before events after) :
    before.toList.map Prod.fst ++ openedKeys events =
      closedKeys events ++ after.toList.map Prod.fst := by
  induction h with
  | done => simp [openedKeys, closedKeys]
  | opens rest ih => simpa [openedKeys, closedKeys] using ih
  | closes order rest ih => simpa [openedKeys, closedKeys] using ih

theorem Alternates.count_closed_le [LE τ] [DecidableEq κ] {after : Option (κ × τ)}
    {events : List (Event κ τ)} (h : Alternates none events after) (key : κ) :
    (closedKeys events).count key ≤ (openedKeys events).count key := by
  have keys := h.keys
  simp only [Option.toList_none, List.map_nil, List.nil_append] at keys
  rw [keys, List.count_append]
  exact Nat.le_add_right _ _

/-- Keys that determine and are determined by their stamps are closed once when no two
episodes open at one stamp. -/
theorem Alternates.closedKeys_nodup [LE τ] {after : Option (κ × τ)} {events : List (Event κ τ)}
    (h : Alternates none events after) {mint : τ → κ} (injective : Function.Injective mint)
    (minted : openedKeys events = (openedStamps events).map mint)
    (distinct : (openedStamps events).Nodup) : (closedKeys events).Nodup := by
  have keys := h.keys
  simp only [Option.toList_none, List.map_nil, List.nil_append] at keys
  have opened : (openedKeys events).Nodup := minted ▸ distinct.map injective
  rw [keys] at opened
  exact opened.of_append_left

end Episodes
