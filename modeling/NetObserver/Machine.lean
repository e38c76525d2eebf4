import Mathlib.Data.NNRat.Defs
import Mathlib.Data.Rat.Floor

/-! Machine numbers: 64-bit signed and 32-bit unsigned arithmetic as `Int` and `Nat`
with explicit bounds, and binary floating point as exact rationals. -/

namespace Machine

def i64Min : Int := -9223372036854775808

def i64Max : Int := 9223372036854775807

def u32Max : Nat := 4294967295

def clampI64 (x : Int) : Int := max i64Min (min i64Max x)

/-- Two's complement wrap-around onto the signed 64-bit values. -/
def wrapI64 (x : Int) : Int := (x - i64Min) % 18446744073709551616 + i64Min

def satSub (a b : Int) : Int := clampI64 (a - b)

def satAddU32 (a b : Nat) : Nat := min (a + b) u32Max

def u64Max : Nat := 18446744073709551615

def satAddU64 (a b : Nat) : Nat := min (a + b) u64Max

theorem satAddU32_min (a b : Nat) : satAddU32 (min a u32Max) b = min (a + b) u32Max := by
  unfold satAddU32
  omega

theorem satAddU64_min (a b : Nat) : satAddU64 (min a u64Max) b = min (a + b) u64Max := by
  unfold satAddU64
  omega

/-- A saturated difference falls short of a bound above the least value exactly when
the true difference does. -/
theorem satSub_lt_iff {a b bound : Int} (low : i64Min < bound) (high : bound ≤ i64Max) :
    satSub a b < bound ↔ a - b < bound := by
  unfold satSub clampI64
  omega

/-- Binary floating point: a finite value is a sign and an exact magnitude. -/
inductive F64 where
  | nan
  | infinite (negative : Bool)
  | finite (negative : Bool) (magnitude : ℚ≥0)
deriving DecidableEq

namespace F64

def zero : F64 := finite false 0

def value (negative : Bool) (magnitude : ℚ≥0) : ℚ :=
  if negative then -magnitude.val else magnitude.val

def lt : F64 → F64 → Bool
  | nan, _ => false
  | _, nan => false
  | infinite s, infinite t => s && !t
  | infinite s, finite _ _ => s
  | finite _ _, infinite t => !t
  | finite s m, finite t n => decide (value s m < value t n)

def le : F64 → F64 → Bool
  | nan, _ => false
  | _, nan => false
  | infinite s, infinite t => s || !t
  | infinite s, finite _ _ => s
  | finite _ _, infinite t => !t
  | finite s m, finite t n => decide (value s m ≤ value t n)

/-- The nearest natural number, ties to the even one. -/
def roundTiesToEven (q : ℚ≥0) : Nat :=
  let below := q.num / q.den
  let twice := 2 * (q.num % q.den)
  if twice < q.den then below
  else if q.den < twice then below + 1
  else if below % 2 = 0 then below else below + 1

def fixed2 : F64 → String
  | nan => "NaN"
  | infinite s => (if s then "-" else "") ++ "inf"
  | finite s m =>
    let cents := roundTiesToEven (m * 100)
    (if s then "-" else "") ++ toString (cents / 100) ++ "." ++
      toString (cents % 100 / 10) ++ toString (cents % 10)

end F64

end Machine
