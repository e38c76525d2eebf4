import Mathlib.Algebra.Ring.Nat
import Mathlib.Data.List.Basic

/-! Numbers as a fixed count of bytes, in either order. -/

namespace ByteOrder

def leNat : List UInt8 → Nat
  | [] => 0
  | b :: bs => b.toNat + 256 * leNat bs

def leBytes : Nat → Nat → List UInt8
  | 0, _ => []
  | width + 1, n => UInt8.ofNat n :: leBytes width (n / 256)

def beNat (bs : List UInt8) : Nat := leNat bs.reverse

def beBytes (width n : Nat) : List UInt8 := (leBytes width n).reverse

@[simp] theorem leBytes_length (width n : Nat) : (leBytes width n).length = width := by
  induction width generalizing n with
  | zero => rfl
  | succ width ih => rw [leBytes, List.length_cons, ih]

@[simp] theorem beBytes_length (width n : Nat) : (beBytes width n).length = width := by
  rw [beBytes, List.length_reverse, leBytes_length]

theorem leNat_leBytes {width n : Nat} (fits : n < 256 ^ width) : leNat (leBytes width n) = n := by
  induction width generalizing n with
  | zero =>
    have zero : n = 0 := by simpa using fits
    rw [zero]
    rfl
  | succ width ih =>
    have rest : n / 256 < 256 ^ width := by
      rw [Nat.pow_succ] at fits
      omega
    have low : (UInt8.ofNat n).toNat = n % 256 := UInt8.toNat_ofNat'
    rw [leBytes, leNat, ih rest, low]
    omega

theorem beNat_beBytes {width n : Nat} (fits : n < 256 ^ width) : beNat (beBytes width n) = n := by
  rw [beNat, beBytes, List.reverse_reverse, leNat_leBytes fits]

end ByteOrder
