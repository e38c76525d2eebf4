import Std.Data.String.ToInt
import NetObserver.TriggerEngine

/-! An incident's id taken apart again: the rule that fired and the instant it fired at. -/

namespace NetObserver

open Machine

/-- `str::rsplit_once`: around the last `c`. -/
def rsplitOnce (c : Char) : List Char → Option (List Char × List Char)
  | [] => none
  | x :: xs =>
    match rsplitOnce c xs with
    | some (front, tail) => some (x :: front, tail)
    | none => if x = c then some ([], xs) else none

def splitSign : List Char → Bool × List Char
  | '-' :: rest => (true, rest)
  | '+' :: rest => (false, rest)
  | s => (false, s)

/-- `i64::from_str`: one sign or none, then decimal digits, the value within range. -/
def parseI64 (s : List Char) : Option Int :=
  let (negative, digits) := splitSign s
  if digits.isEmpty || !digits.all Char.isDigit then none
  else
    let magnitude : Int := Nat.ofDigitChars 10 digits 0
    let value := if negative then -magnitude else magnitude
    if i64Min ≤ value ∧ value ≤ i64Max then some value else none

def incidentIdParts (id : String) : Option (String × Int) := do
  let (triggerId, tail) ← rsplitOnce '-' id.toList
  let openedUs ← parseI64 tail
  some (String.ofList triggerId, openedUs)

theorem rsplitOnce_none {c : Char} {s : List Char} (absent : c ∉ s) : rsplitOnce c s = none := by
  induction s with
  | nil => rfl
  | cons x xs ih =>
    have apart : x ≠ c := by
      rintro rfl
      exact absent (List.mem_cons_self ..)
    simp [rsplitOnce, ih fun mem => absent (List.mem_cons_of_mem _ mem), apart]

theorem rsplitOnce_append {c : Char} (front : List Char) {tail : List Char} (absent : c ∉ tail) :
    rsplitOnce c (front ++ c :: tail) = some (front, tail) := by
  induction front with
  | nil => simp [rsplitOnce, rsplitOnce_none absent]
  | cons x front ih => simp [rsplitOnce, ih]

theorem parseI64_digits {digits : List Char} (some_ : digits ≠ [])
    (decimal : ∀ c ∈ digits, c.isDigit = true)
    (range : (Nat.ofDigitChars 10 digits 0 : Int) ≤ i64Max) :
    parseI64 digits = some (Nat.ofDigitChars 10 digits 0 : Int) := by
  have low : i64Min ≤ (Nat.ofDigitChars 10 digits 0 : Int) := by
    have nonneg := Int.natCast_nonneg (Nat.ofDigitChars 10 digits 0)
    simp only [i64Min]
    omega
  cases digits with
  | nil => exact absurd rfl some_
  | cons x xs =>
    have digit := decimal x (List.mem_cons_self ..)
    have signless : splitSign (x :: xs) = (false, x :: xs) := by
      unfold splitSign
      split
      next rest eq =>
        rw [(List.cons.inj eq).1] at digit
        cases digit
      next rest eq =>
        rw [(List.cons.inj eq).1] at digit
        cases digit
      next => rfl
    have all : (x :: xs).all Char.isDigit = true := List.all_eq_true.mpr decimal
    rw [parseI64, signless]
    simp only [all, List.isEmpty_cons, Bool.not_true, Bool.or_false, Bool.false_eq_true, if_false]
    rw [if_pos ⟨low, range⟩]

/-- No rule's id ends in the dash that a minted id puts after it. -/
def Dashless (ruleId : String) : Prop := ruleId.toList.getLast? ≠ some '-'

instance (ruleId : String) : Decidable (Dashless ruleId) := inferInstanceAs (Decidable (_ ≠ _))

/-- The last dash of a minted id and the digits after it; a moment before the epoch has one more
dash of its own in front of them. -/
theorem rsplitOnce_mint (ruleId : String) (openedUs : Int) :
    ∃ front digits, rsplitOnce '-' (mintIncidentId ruleId openedUs).toList = some (front, digits) ∧
      (front = ruleId.toList ∧ openedUs = (Nat.ofDigitChars 10 digits 0 : Int) ∨
        front = ruleId.toList ++ ['-'] ∧ openedUs = -(Nat.ofDigitChars 10 digits 0 : Int)) := by
  have dashless (n : Nat) : '-' ∉ Nat.toDigits 10 n := by
    intro mem
    cases (Nat.isDigit_of_mem_toDigits (by omega) (by omega) mem : '-'.isDigit = true)
  cases openedUs with
  | ofNat n =>
    have rendered : (n : Int).repr = String.ofList (Nat.toDigits 10 n) := rfl
    have shape : (mintIncidentId ruleId (Int.ofNat n)).toList =
        ruleId.toList ++ '-' :: Nat.toDigits 10 n := by
      simp [mintIncidentId, rendered]
    refine ⟨_, _, by rw [shape, rsplitOnce_append _ (dashless n)], .inl ⟨rfl, ?_⟩⟩
    rw [Nat.ofDigitChars_ten_toDigits]
    rfl
  | negSucc n =>
    have rendered : (Int.negSucc n).repr = "-" ++ String.ofList (Nat.toDigits 10 (n + 1)) := rfl
    have shape : (mintIncidentId ruleId (Int.negSucc n)).toList =
        (ruleId.toList ++ ['-']) ++ '-' :: Nat.toDigits 10 (n + 1) := by
      simp [mintIncidentId, rendered]
    refine ⟨_, _, by rw [shape, rsplitOnce_append _ (dashless (n + 1))], .inr ⟨rfl, ?_⟩⟩
    rw [Nat.ofDigitChars_ten_toDigits]
    rfl

/-- Two incidents of one id were opened at one moment. -/
theorem mintIncidentId_opened {a b : String} {m n : Int} (dashlessA : Dashless a)
    (dashlessB : Dashless b) (same : mintIncidentId a m = mintIncidentId b n) : m = n := by
  obtain ⟨frontA, digitsA, splitA, shapeA⟩ := rsplitOnce_mint a m
  obtain ⟨frontB, digitsB, splitB, shapeB⟩ := rsplitOnce_mint b n
  rw [same, splitB] at splitA
  obtain ⟨rfl, rfl⟩ := Prod.mk.inj (Option.some.inj splitA)
  rcases shapeA with ⟨frontA, atA⟩ | ⟨frontA, atA⟩
  · rcases shapeB with ⟨_, atB⟩ | ⟨frontB, _⟩
    · rw [atA, atB]
    · exact absurd (by rw [← frontA, frontB, List.getLast?_concat]) dashlessA
  · rcases shapeB with ⟨frontB, _⟩ | ⟨_, atB⟩
    · exact absurd (by rw [← frontB, frontA, List.getLast?_concat]) dashlessB
    · rw [atA, atB]

end NetObserver
