import Mathlib.Algebra.Group.Nat.Defs

/-! Masks of a run of ones in front of zeros, and the blocks of numbers that they tell apart. -/

namespace PrefixMask

variable {w h : Nat}

/-- Ones in front of `h` zeros. -/
def mask (w h : Nat) : BitVec w := BitVec.allOnes w <<< h

theorem pow_le (le : h ≤ w) : 2 ^ h ≤ 2 ^ w := Nat.pow_le_pow_right (by decide) le

theorem mask_getLsbD (i : Nat) : (mask w h).getLsbD i = (decide (i < w) && decide (h ≤ i)) := by
  unfold mask
  rw [BitVec.getLsbD_shiftLeft]
  by_cases inside : i < w
  · by_cases high : h ≤ i
    · have lower : i - h < w := by omega
      simp [inside, high, lower, Nat.not_lt.mpr high]
    · simp [high, Nat.lt_of_not_le high]
  · simp [inside]

theorem not_mask_eq : ~~~mask w h = BitVec.ofNat w (2 ^ h - 1) := by
  apply BitVec.eq_of_getLsbD_eq
  intro i inside
  rw [BitVec.getLsbD_not, mask_getLsbD, BitVec.getLsbD_ofNat, Nat.testBit_two_pow_sub_one]
  by_cases high : h ≤ i
  · simp [inside, high]
  · simp [inside, high, Nat.lt_of_not_le high]

theorem toNat_not_mask (le : h ≤ w) : (~~~mask w h).toNat = 2 ^ h - 1 := by
  have small : 2 ^ h - 1 < 2 ^ w := by
    have bound := pow_le le
    have positive := Nat.two_pow_pos h
    omega
  rw [not_mask_eq, BitVec.toNat_ofNat, Nat.mod_eq_of_lt small]

/-- What a mask takes off a number is its remainder. -/
theorem toNat_and_not_mask (x : BitVec w) (le : h ≤ w) :
    (x &&& ~~~mask w h).toNat = x.toNat % 2 ^ h := by
  rw [BitVec.toNat_and, toNat_not_mask le, Nat.and_two_pow_sub_one_eq_mod]

theorem toNat_and_mask (x : BitVec w) (le : h ≤ w) :
    (x &&& mask w h).toNat = x.toNat - x.toNat % 2 ^ h := by
  have apart : (x &&& mask w h) &&& (x &&& ~~~mask w h) = 0#w := by
    apply BitVec.eq_of_getLsbD_eq
    intro i inside
    simp only [BitVec.getLsbD_and, BitVec.getLsbD_not, BitVec.getLsbD_zero]
    cases (mask w h).getLsbD i <;> simp
  have whole : (x &&& mask w h) + (x &&& ~~~mask w h) = x := by
    rw [BitVec.add_eq_or_of_and_eq_zero _ _ apart]
    apply BitVec.eq_of_getLsbD_eq
    intro i inside
    simp only [BitVec.getLsbD_or, BitVec.getLsbD_and, BitVec.getLsbD_not, inside, decide_true,
      Bool.true_and]
    cases (mask w h).getLsbD i <;> simp
  have sum := BitVec.toNat_add_of_and_eq_zero apart
  rw [whole, toNat_and_not_mask x le] at sum
  omega

/-- The last number of a block. -/
theorem toNat_or_not_mask (x : BitVec w) (le : h ≤ w) :
    (x &&& mask w h ||| ~~~mask w h).toNat = x.toNat - x.toNat % 2 ^ h + (2 ^ h - 1) := by
  have apart : (x &&& mask w h) &&& ~~~mask w h = 0#w := by
    apply BitVec.eq_of_getLsbD_eq
    intro i inside
    simp only [BitVec.getLsbD_and, BitVec.getLsbD_not, BitVec.getLsbD_zero]
    cases (mask w h).getLsbD i <;> simp
  rw [← BitVec.add_eq_or_of_and_eq_zero _ _ apart, BitVec.toNat_add_of_and_eq_zero apart,
    toNat_and_mask x le, toNat_not_mask le]

/-- The test on a complement: it is one less than a power of two just where the number is a mask. -/
theorem not_and_succ_eq_zero_iff (m : BitVec w) :
    ~~~m &&& (~~~m + 1) = 0 ↔ ∃ h ≤ w, m = mask w h := by
  have named (h : Nat) (le : h ≤ w) : m = mask w h ↔ (~~~m).toNat + 1 = 2 ^ h := by
    have positive := Nat.two_pow_pos h
    have flipped : m = mask w h ↔ ~~~m = ~~~mask w h := BitVec.not_inj.symm
    rw [flipped, ← BitVec.toNat_inj, toNat_not_mask le]
    omega
  have bound := (~~~m).isLt
  have sum : (~~~m + 1).toNat = ((~~~m).toNat + 1) % 2 ^ w := by
    have one : (1 : BitVec w).toNat = 1 % 2 ^ w := rfl
    rw [BitVec.toNat_add, one, Nat.add_mod_mod]
  by_cases full : (~~~m).toNat + 1 = 2 ^ w
  · refine iff_of_true ?_ ⟨w, Nat.le_refl w, (named w (Nat.le_refl w)).mpr full⟩
    have wraps : ~~~m + 1 = 0 := by
      rw [← BitVec.toNat_inj, sum, full, Nat.mod_self]
      exact (Nat.zero_mod (2 ^ w)).symm
    rw [wraps]
    exact BitVec.and_zero
  · have next : (~~~m + 1).toNat = (~~~m).toNat + 1 := by
      rw [sum, Nat.mod_eq_of_lt (by omega)]
    have power : ~~~m &&& (~~~m + 1) = 0 ↔ ((~~~m).toNat + 1).isPowerOfTwo := by
      rw [← Nat.and_sub_one_eq_zero_iff_isPowerOfTwo (Nat.succ_ne_zero _), Nat.succ_sub_one,
        Nat.and_comm, ← BitVec.toNat_inj, BitVec.toNat_and, next]
      rfl
    rw [power]
    constructor
    · rintro ⟨h, value⟩
      have le : h ≤ w := by
        rw [← Nat.pow_le_pow_iff_right (Nat.lt_succ_self 1), ← value]
        exact bound
      exact ⟨h, le, (named h le).mpr value⟩
    · rintro ⟨h, le, same⟩
      exact ⟨h, (named h le).mp same⟩

end PrefixMask
