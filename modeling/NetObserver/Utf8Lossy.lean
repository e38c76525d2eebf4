import Mathlib.Algebra.Group.Nat.Defs

/-! Lossy decoding of UTF-8: each maximal ill-formed run of bytes becomes one replacement character. -/

namespace Utf8Lossy

def replacement : Char := '\uFFFD'

def continuation (b : UInt8) : Bool := 0x80 ≤ b && b ≤ 0xBF

/-- The second bytes a leading byte admits: no overlong form, no surrogate, nothing past U+10FFFF. -/
def second (b c : UInt8) : Bool :=
  if b = 0xE0 then 0xA0 ≤ c && c ≤ 0xBF
  else if b = 0xED then 0x80 ≤ c && c ≤ 0x9F
  else if b = 0xF0 then 0x90 ≤ c && c ≤ 0xBF
  else if b = 0xF4 then 0x80 ≤ c && c ≤ 0x8F
  else continuation c

/-- How many bytes a leading byte wants behind it. -/
def wanted (b : UInt8) : Nat :=
  if 0xC2 ≤ b && b ≤ 0xDF then 1
  else if 0xE0 ≤ b && b ≤ 0xEF then 2
  else if 0xF0 ≤ b && b ≤ 0xF4 then 3
  else 0

def join (high : Nat) (b : UInt8) : Nat := high * 64 + b.toNat % 64

/-- Takes `n` more continuation bytes; the count of the bytes taken stops at an ill-formed one. -/
def continued : Nat → Nat → Nat → List UInt8 → Char × Nat
  | 0, value, taken, _ => (Char.ofNat value, taken)
  | _ + 1, _, taken, [] => (replacement, taken)
  | n + 1, value, taken, c :: rest =>
    if continuation c then continued n (join value c) (taken + 1) rest else (replacement, taken)

def decodeFirst (b : UInt8) (rest : List UInt8) : Char × Nat :=
  if b ≤ 0x7F then (Char.ofNat b.toNat, 0)
  else
    match wanted b, rest with
    | 0, _ => (replacement, 0)
    | _ + 1, [] => (replacement, 0)
    | n + 1, c :: more =>
      if second b c then continued n (join (b.toNat % (32 >>> n)) c) 1 more else (replacement, 0)

def decodeFrom : Nat → List UInt8 → List Char
  | _, [] => []
  | skip + 1, _ :: rest => decodeFrom skip rest
  | 0, b :: rest => (decodeFirst b rest).1 :: decodeFrom (decodeFirst b rest).2 rest

example : decodeFrom 0 [0x61, 0xC3, 0xA9, 0xE2, 0x82, 0x41, 0xED, 0xA0, 0xF0, 0x9F, 0x98, 0x80] =
    ['a', 'é', replacement, 'A', replacement, replacement, '😀'] := by decide

/-- `String::from_utf8_lossy`. -/
def fromUtf8Lossy (bytes : List UInt8) : String := String.ofList (decodeFrom 0 bytes)

def Ascii (word : List UInt8) : Prop := ∀ b ∈ word, b ≤ 0x7F

theorem continuation_bounds {c : UInt8} (more : continuation c = true) :
    0x80 ≤ c.toNat ∧ c.toNat ≤ 0xBF := by
  simpa [continuation, UInt8.le_iff_toNat_le] using more

theorem second_bounds {b c : UInt8} (admitted : second b c = true) :
    (0x80 ≤ c.toNat ∧ c.toNat ≤ 0xBF) ∧ (b.toNat = 0xE0 → 0xA0 ≤ c.toNat) ∧
      (b.toNat = 0xED → c.toNat ≤ 0x9F) ∧ (b.toNat = 0xF0 → 0x90 ≤ c.toNat) ∧
      (b.toNat = 0xF4 → c.toNat ≤ 0x8F) := by
  simp only [second, ← UInt8.toNat_inj] at admitted
  repeat' split at admitted
  all_goals simp [continuation, UInt8.le_iff_toNat_le] at *
  all_goals omega

theorem not_continuation {c : UInt8} (low : c ≤ 0x7F) : continuation c = false := by
  have bound : c.toNat ≤ 0x7F := low
  apply Bool.eq_false_iff.mpr
  intro more
  have high := (continuation_bounds more).1
  omega

theorem not_second {b c : UInt8} (low : c ≤ 0x7F) : second b c = false := by
  have bound : c.toNat ≤ 0x7F := low
  apply Bool.eq_false_iff.mpr
  intro admitted
  have high := (second_bounds admitted).1.1
  omega

/-- An ASCII byte ends the run of continuation bytes as the end of the text does. -/
theorem continued_append_ascii {c : UInt8} (low : c ≤ 0x7F) (b : List UInt8) :
    ∀ n value taken a, continued n value taken (a ++ c :: b) = continued n value taken a := by
  intro n
  induction n with
  | zero => intro value taken a; rfl
  | succ n ih =>
    intro value taken a
    cases a with
    | nil => simp [continued, not_continuation low]
    | cons d a => simp only [List.cons_append, continued, ih]

theorem decodeFirst_append_ascii {c : UInt8} (low : c ≤ 0x7F) (x : UInt8) (a b : List UInt8) :
    decodeFirst x (a ++ c :: b) = decodeFirst x a := by
  unfold decodeFirst
  split
  next => rfl
  next =>
    cases wanted x with
    | zero => rfl
    | succ n =>
      cases a with
      | nil => simp [not_second low]
      | cons d a => simp only [List.cons_append, continued_append_ascii low]

theorem continued_taken_le (n value taken : Nat) (a : List UInt8) :
    (continued n value taken a).2 ≤ taken + a.length := by
  induction n generalizing value taken a with
  | zero => simp [continued]
  | succ n ih =>
    cases a with
    | nil => simp [continued]
    | cons d a =>
      simp only [continued]
      split
      next =>
        have more := ih (join value d) (taken + 1) a
        simp only [List.length_cons]
        omega
      next => exact Nat.le_add_right taken _

theorem decodeFirst_taken_le (x : UInt8) (a : List UInt8) : (decodeFirst x a).2 ≤ a.length := by
  unfold decodeFirst
  split
  next => exact Nat.zero_le _
  next =>
    cases wanted x with
    | zero => exact Nat.zero_le _
    | succ n =>
      cases a with
      | nil => exact Nat.zero_le _
      | cons d a =>
        simp only
        split
        next =>
          have more := continued_taken_le n (join (x.toNat % (32 >>> n)) d) 1 a
          simp only [List.length_cons]
          omega
        next => exact Nat.zero_le _

/-- Whatever is left open in front of an ASCII byte, the decoder starts anew there. -/
theorem decodeFrom_append_ascii {c : UInt8} (low : c ≤ 0x7F) (b : List UInt8) :
    ∀ (a : List UInt8) skip, skip ≤ a.length →
      decodeFrom skip (a ++ c :: b) = decodeFrom skip a ++ decodeFrom 0 (c :: b)
  | [], skip, within => by
    cases Nat.le_zero.mp within
    rfl
  | x :: a, 0, _ => by
    simp only [List.cons_append, decodeFrom, decodeFirst_append_ascii low]
    rw [decodeFrom_append_ascii low b a _ (decodeFirst_taken_le x a)]
    simp only [decodeFrom]
  | x :: a, skip + 1, within => by
    simp only [List.cons_append, decodeFrom]
    rw [decodeFrom_append_ascii low b a skip (Nat.le_of_succ_le_succ within)]
    simp only [decodeFrom]

theorem continued_value (n value taken : Nat) (rest : List UInt8) :
    (continued n value taken rest).1 = replacement ∨
      ∃ low < 64 ^ n, (continued n value taken rest).1 = Char.ofNat (value * 64 ^ n + low) := by
  induction n generalizing value taken rest with
  | zero => exact .inr ⟨0, by simp, by simp [continued]⟩
  | succ n ih =>
    cases rest with
    | nil => exact .inl rfl
    | cons c rest =>
      simp only [continued]
      split
      next =>
        rcases ih (join value c) (taken + 1) rest with replaced | ⟨low, bound, eq⟩
        · exact .inl replaced
        · have digit : c.toNat % 64 * 64 ^ n + 64 ^ n ≤ 64 * 64 ^ n := by
            rw [← Nat.succ_mul]
            exact Nat.mul_le_mul_right _ (Nat.mod_lt _ (by omega))
          refine .inr ⟨c.toNat % 64 * 64 ^ n + low, ?_, ?_⟩
          · rw [Nat.pow_succ]
            omega
          · rw [eq, join, Nat.add_mul, Nat.pow_succ, Nat.add_assoc, Nat.mul_assoc,
              Nat.mul_comm 64]
      next => exact .inl rfl

theorem toNat_ofNat {n : Nat} (valid : n.isValidChar) : (Char.ofNat n).toNat = n := by
  rw [Char.ofNat, dif_pos valid]
  rfl

theorem wanted_cases {b : UInt8} {n : Nat} (more : wanted b = n + 1) :
    (0xC2 ≤ b.toNat ∧ b.toNat ≤ 0xDF ∧ n = 0) ∨ (0xE0 ≤ b.toNat ∧ b.toNat ≤ 0xEF ∧ n = 1) ∨
      (0xF0 ≤ b.toNat ∧ b.toNat ≤ 0xF4 ∧ n = 2) := by
  simp only [wanted, UInt8.le_iff_toNat_le] at more
  repeat' split at more
  all_goals simp at *
  all_goals omega

/-- No overlong form and no surrogate: what the bytes of a character join to is its own value. -/
theorem joined_valid {b c : UInt8} {n low : Nat} (more : wanted b = n + 1)
    (admitted : second b c = true) (bound : low < 64 ^ n) :
    0x80 ≤ join (b.toNat % (32 >>> n)) c * 64 ^ n + low ∧
      (join (b.toNat % (32 >>> n)) c * 64 ^ n + low).isValidChar := by
  obtain ⟨⟨tail, tail'⟩, three, surrogates, four, last⟩ := second_bounds admitted
  unfold join Nat.isValidChar
  rcases wanted_cases more with ⟨first, first', rfl⟩ | ⟨first, first', rfl⟩ | ⟨first, first', rfl⟩
  · simp at *
    omega
  · simp at *
    omega
  · simp at *
    omega

/-- A character of several bytes is no ASCII one. -/
theorem decodeFirst_high {b : UInt8} (high : 0x7F < b.toNat) (rest : List UInt8) :
    0x80 ≤ (decodeFirst b rest).1.toNat := by
  have replaced : 0x80 ≤ replacement.toNat := by decide
  have not_low : ¬ b ≤ 0x7F := fun low => absurd (show b.toNat ≤ 0x7F from low) (by omega)
  unfold decodeFirst
  rw [if_neg not_low]
  cases count : wanted b with
  | zero => exact replaced
  | succ n =>
    cases rest with
    | nil => exact replaced
    | cons c rest =>
      simp only
      split
      next admitted =>
        rcases continued_value n (join (b.toNat % (32 >>> n)) c) 1 rest with gone | ⟨low, bound, eq⟩
        · rw [gone]
          exact replaced
        · obtain ⟨wide, valid⟩ := joined_valid count admitted bound
          rw [eq, toNat_ofNat valid]
          exact wide
      next => exact replaced

theorem decodeFrom_ascii_cons {b : UInt8} (low : b ≤ 0x7F) (rest : List UInt8) :
    decodeFrom 0 (b :: rest) = Char.ofNat b.toNat :: decodeFrom 0 rest := by
  simp [decodeFrom, decodeFirst, low]

theorem decodeFrom_ascii_append {word : List UInt8} (ascii : Ascii word) (rest : List UInt8) :
    decodeFrom 0 (word ++ rest) = decodeFrom 0 word ++ decodeFrom 0 rest := by
  induction word with
  | nil => rfl
  | cons b word ih =>
    have low := ascii b List.mem_cons_self
    have behind := ih fun c mem => ascii c (List.mem_cons_of_mem b mem)
    rw [List.cons_append, decodeFrom_ascii_cons low, decodeFrom_ascii_cons low, behind]
    rfl

theorem decodeFrom_take {word : List UInt8} (ascii : Ascii word) (n : Nat) :
    decodeFrom 0 (word.take n) = (decodeFrom 0 word).take n := by
  induction word generalizing n with
  | nil => simp [decodeFrom]
  | cons b word ih =>
    have low := ascii b List.mem_cons_self
    cases n with
    | zero => rfl
    | succ n =>
      rw [List.take_succ_cons, decodeFrom_ascii_cons low, decodeFrom_ascii_cons low,
        ih (fun c mem => ascii c (List.mem_cons_of_mem b mem)) n, List.take_succ_cons]

/-- An ASCII word in the midst of any bytes decodes as it does alone. -/
theorem decodeFrom_around {word : List UInt8} (ascii : Ascii word) (some_ : word ≠ [])
    (a b : List UInt8) :
    decodeFrom 0 (a ++ (word ++ b)) = decodeFrom 0 a ++ (decodeFrom 0 word ++ decodeFrom 0 b) := by
  cases word with
  | nil => exact absurd rfl some_
  | cons c word =>
    have low := ascii c List.mem_cons_self
    rw [← decodeFrom_ascii_append ascii, List.cons_append]
    exact decodeFrom_append_ascii low (word ++ b) a 0 (Nat.zero_le _)

theorem ascii_prefix_of_decode {word : List UInt8} (ascii : Ascii word) {bytes : List UInt8}
    (front : decodeFrom 0 word <+: decodeFrom 0 bytes) : word <+: bytes := by
  induction word generalizing bytes with
  | nil => exact List.nil_prefix
  | cons b word ih =>
    have low := ascii b List.mem_cons_self
    have low' : b.toNat ≤ 0x7F := low
    have value : (Char.ofNat b.toNat).toNat = b.toNat := toNat_ofNat (.inl (by omega))
    rw [decodeFrom_ascii_cons low] at front
    cases bytes with
    | nil => simp [decodeFrom] at front
    | cons c rest =>
      by_cases high : 0x7F < c.toNat
      · simp only [decodeFrom, List.cons_prefix_cons] at front
        have wide := decodeFirst_high high rest
        rw [← front.1, value] at wide
        omega
      · have own : c ≤ 0x7F := Nat.le_of_not_lt high
        have value' : (Char.ofNat c.toNat).toNat = c.toNat := toNat_ofNat (.inl (by omega))
        rw [decodeFrom_ascii_cons own, List.cons_prefix_cons] at front
        have same : b.toNat = c.toNat := by rw [← value, front.1, value']
        rw [List.cons_prefix_cons]
        exact ⟨UInt8.toNat_inj.mp same,
          ih (fun d mem => ascii d (List.mem_cons_of_mem b mem)) front.2⟩

/-- The decoded text holds an ASCII word exactly where the bytes hold it. -/
theorem decode_infix_iff {word : List UInt8} (ascii : Ascii word) {bytes : List UInt8} :
    decodeFrom 0 word <:+: decodeFrom 0 bytes ↔ word <:+: bytes := by
  constructor
  · have from_ : ∀ (bytes : List UInt8) skip,
        decodeFrom 0 word <:+: decodeFrom skip bytes → word <:+: bytes := by
      intro bytes
      induction bytes with
      | nil =>
        intro skip within
        cases word with
        | nil => exact List.infix_rfl
        | cons b word => simp [decodeFrom] at within
      | cons b rest ih =>
        intro skip within
        cases skip with
        | succ skip => exact (ih skip within).trans (List.suffix_cons b rest).isInfix
        | zero =>
          rw [decodeFrom, List.infix_cons_iff] at within
          rcases within with front | behind
          · have front' : word <+: b :: rest := ascii_prefix_of_decode ascii front
            exact front'.isInfix
          · exact (ih _ behind).trans (List.suffix_cons b rest).isInfix
    exact from_ bytes 0
  · rintro ⟨a, b, rfl⟩
    cases word with
    | nil => exact List.nil_infix
    | cons c word =>
      rw [List.append_assoc, decodeFrom_around ascii (List.cons_ne_nil c word)]
      exact ⟨_, _, List.append_assoc _ _ _⟩

end Utf8Lossy
