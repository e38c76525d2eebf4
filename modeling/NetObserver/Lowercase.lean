import Mathlib.Data.Char
import NetObserver.Infixes

/-! Texts in lower case, and the ASCII words that are in them. -/

namespace Lowercase

def isAscii (c : Char) : Bool := c.toNat < 128

/-- A character of ASCII, or none of its own. -/
def ascii (c : Char) : Option Char := if isAscii c then some c else none

/-- How characters are put into lower case: what one becomes may hang on what stands around it, but
only between characters outside ASCII. -/
structure Casing where
  become : List Char → Char → List Char → List Char
  ofAscii : ∀ before c after, isAscii c = true → become before c after = [c.toLower]
  ofPunctuation : ∀ before c after, 0x2000 ≤ c.toNat → c.toNat ≤ 0x206f → become before c after = [c]
  alike : ∀ before after before' after' c,
    (become before c after).map ascii = (become before' c after').map ascii

/-- The casing that only changes the capitals of ASCII. -/
def Casing.plain : Casing where
  become := fun _ c _ => [c.toLower]
  ofAscii := fun _ _ _ _ => rfl
  ofPunctuation := by
    intro _ c _ low high
    have small : ¬ (c.val ≥ 'A'.val ∧ c.val ≤ 'Z'.val) := by
      rintro ⟨_, below⟩
      have bound : c.toNat ≤ 'Z'.toNat := UInt32.le_iff_toNat_le.mp below
      have value : 'Z'.toNat = 90 := rfl
      omega
    have same : c.toLower = c := dif_neg small
    rw [same]
  alike := fun _ _ _ _ _ => rfl

theorem isAscii_toLower {c : Char} (small : isAscii c = true) : isAscii c.toLower = true := by
  rw [isAscii, decide_eq_true_eq] at *
  unfold Char.toLower
  split
  next capital =>
    have low := UInt32.le_iff_toNat_le.mp capital.1
    have high := UInt32.le_iff_toNat_le.mp capital.2
    have value : 'Z'.val.toNat = 90 := rfl
    have shift : ('a'.val - 'A'.val).toNat = 32 := rfl
    change (c.val + ('a'.val - 'A'.val)).toNat < 128
    rw [UInt32.toNat_add, shift]
    omega
  next => exact small

variable (k : Casing)

/-- The rest of a text in lower case, behind what stands in front of it. -/
def lowerFrom (before : List Char) : List Char → List Char
  | [] => []
  | c :: rest => k.become before c rest ++ lowerFrom (before ++ [c]) rest

def lower (s : List Char) : List Char := lowerFrom k [] s

/-- The ASCII of a text in lower case, with a gap for every other character. -/
def folded (s : List Char) : List (Option Char) := s.flatMap fun c => (k.become [] c []).map ascii

variable {k}

theorem map_ascii_lowerFrom (before s : List Char) :
    (lowerFrom k before s).map ascii = folded k s := by
  induction s generalizing before with
  | nil => rfl
  | cons c rest ih =>
    rw [lowerFrom, List.map_append, ih, k.alike before rest [] [] c, folded, folded,
      List.flatMap_cons]

theorem map_ascii {s : List Char} (all : s.all isAscii = true) : s.map ascii = s.map some := by
  apply List.map_congr_left
  intro c mem
  rw [ascii, if_pos (List.all_eq_true.mp all c mem)]

theorem eq_of_map_ascii {word found : List Char} (same : word.map some = found.map ascii) :
    word = found := by
  induction word generalizing found with
  | nil => exact (List.map_eq_nil_iff.mp same.symm).symm
  | cons c word ih =>
    cases found with
    | nil => cases same
    | cons d found =>
      obtain ⟨first, rest⟩ := List.cons.inj same
      rw [ih rest]
      unfold ascii at first
      split at first
      · rw [Option.some.inj first]
      · cases first

/-- A word of ASCII is in the lower case of a text exactly when it is in its folded form. -/
theorem infix_lower_iff {word s : List Char} (all : word.all isAscii = true) :
    word <:+: lower k s ↔ word.map some <:+: folded k s := by
  rw [← map_ascii_lowerFrom [] s, ← map_ascii all, lower]
  constructor
  · intro held
    exact held.map ascii
  · intro held
    obtain ⟨found, inside, same⟩ := List.infix_map_iff.mp held
    rw [map_ascii all] at same
    rw [eq_of_map_ascii same]
    exact inside

theorem folded_append (a b : List Char) : folded k (a ++ b) = folded k a ++ folded k b :=
  List.flatMap_append

theorem folded_ascii {s : List Char} (all : s.all isAscii = true) :
    folded k s = s.map fun c => some c.toLower := by
  induction s with
  | nil => rfl
  | cons c rest ih =>
    rw [List.all_cons, Bool.and_eq_true] at all
    have small : isAscii c.toLower = true := isAscii_toLower all.1
    rw [folded, List.flatMap_cons, k.ofAscii [] c [] all.1, List.map_singleton, ascii,
      if_pos small, List.map_cons]
    exact congrArg (List.cons _) (ih all.2)

end Lowercase
