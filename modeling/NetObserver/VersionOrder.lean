import NetObserver.Machine
import Mathlib.Data.List.Basic
import Mathlib.Data.List.Induction
import Mathlib.Logic.Relation

/-! Service versions: how a text is cut into tokens, how two of them are compared, and the ranges
that contain them. -/

namespace NetObserver

open Machine

inductive Token where
  | num (n : Nat)
  | alpha (s : String)
deriving DecidableEq

namespace Token

/-- Numeric components sort below alphabetic ones. -/
def kindRank : Token → Nat
  | num _ => 0
  | alpha _ => 1

def cmp : Token → Token → Ordering
  | num a, num b => compare a b
  | alpha a, alpha b => compare a b
  | a, b => compare a.kindRank b.kindRank

/-- `n.saturating_mul(10).saturating_add(digit)`. -/
def pushDigit (n : Nat) (c : Char) : Nat :=
  satAddU64 (min (n * 10) u64Max) (c.toNat - '0'.toNat)

/-- The token that a character begins; a separator begins none. -/
def begin? (c : Char) : Option Token :=
  if c.isDigit then some (num (pushDigit 0 c))
  else if c.isAlpha then some (alpha (String.ofList [c.toLower]))
  else none

/-- The token with one more character of its run; `none` where the run ends. -/
def extend : Token → Char → Option Token
  | num n, c => if c.isDigit then some (num (pushDigit n c)) else none
  | alpha s, c => if c.isAlpha then some (alpha (s.push c.toLower)) else none

end Token

/-- The tokens of a text behind the run in progress. -/
def tokensFrom : Option Token → List Char → List Token
  | run, [] => run.toList
  | none, c :: rest => tokensFrom (Token.begin? c) rest
  | some run, c :: rest =>
    match run.extend c with
    | some run => tokensFrom (some run) rest
    | none => run :: tokensFrom (Token.begin? c) rest

structure Version where
  tokens : List Token
deriving DecidableEq

namespace Version

/-- A text without a digit is no version. -/
def parse (raw : String) : Option Version :=
  let tokens := tokensFrom none raw.toList
  if raw.toList.any Char.isDigit && !tokens.isEmpty then some ⟨tokens⟩ else none

/-- Position by position; a missing token ranks below any other. -/
def cmp (a b : Version) : Ordering := List.compareLex Token.cmp a.tokens b.tokens

end Version

structure VersionRange where
  startIncluding : Option String
  startExcluding : Option String
  endIncluding : Option String
  endExcluding : Option String
  exact_ : Option String

namespace VersionRange

def isUnbounded (r : VersionRange) : Bool :=
  r.exact_.isNone && r.startIncluding.isNone && r.startExcluding.isNone &&
    r.endIncluding.isNone && r.endExcluding.isNone

/-- A bound that is there: no answer if it cannot be read, and no version beyond it. -/
def checkBound (bound : Option String) (beyond : Version → Bool) (rest : Option Bool) :
    Option Bool :=
  match bound with
  | none => rest
  | some s => (Version.parse s).bind fun b => if beyond b then some false else rest

def contains (r : VersionRange) (version : String) : Option Bool :=
  (Version.parse version).bind fun v =>
    match r.exact_ with
    | some e => (Version.parse e).map fun e => decide (v = e)
    | none =>
      checkBound r.startIncluding (fun s => v.cmp s == .lt) <|
      checkBound r.startExcluding (fun s => v.cmp s != .gt) <|
      checkBound r.endIncluding (fun e => v.cmp e == .gt) <|
      checkBound r.endExcluding (fun e => v.cmp e != .lt) <| some true

end VersionRange

/-! ### The order -/

namespace Token

theorem cmp_swap (a b : Token) : a.cmp b = (b.cmp a).swap := by
  cases a with
  | num a =>
    cases b with
    | num b => exact Std.OrientedOrd.eq_swap
    | alpha b => rfl
  | alpha a =>
    cases b with
    | num b => rfl
    | alpha b => exact Std.OrientedOrd.eq_swap

theorem cmp_trans {a b c : Token} (ab : (a.cmp b).isLE) (bc : (b.cmp c).isLE) :
    (a.cmp c).isLE := by
  cases a with
  | num a =>
    cases c with
    | alpha c => rfl
    | num c =>
      cases b with
      | num b => exact Std.TransOrd.isLE_trans ab bc
      | alpha b => cases bc
  | alpha a =>
    cases b with
    | num b => cases ab
    | alpha b =>
      cases c with
      | num c => cases bc
      | alpha c => exact Std.TransOrd.isLE_trans ab bc

theorem cmp_eq_iff {a b : Token} : a.cmp b = .eq ↔ a = b := by
  cases a with
  | num a =>
    cases b with
    | num b => rw [cmp, Std.LawfulEqCmp.compare_eq_iff_eq, num.injEq]
    | alpha b => exact iff_of_false (fun same => by cases same) (fun same => by cases same)
  | alpha a =>
    cases b with
    | num b => exact iff_of_false (fun same => by cases same) (fun same => by cases same)
    | alpha b => rw [cmp, Std.LawfulEqCmp.compare_eq_iff_eq, alpha.injEq]

instance : Std.TransCmp cmp where
  eq_swap := cmp_swap _ _
  isLE_trans := cmp_trans

instance : Std.LawfulEqCmp cmp where
  compare_self := cmp_eq_iff.mpr rfl
  eq_of_compare := cmp_eq_iff.mp

end Token

namespace Version

theorem cmp_swap (a b : Version) : a.cmp b = (b.cmp a).swap :=
  @Std.OrientedCmp.eq_swap _ (List.compareLex Token.cmp) _ a.tokens b.tokens

theorem cmp_trans {a b c : Version} (ab : (a.cmp b).isLE) (bc : (b.cmp c).isLE) :
    (a.cmp c).isLE :=
  @Std.TransCmp.isLE_trans _ (List.compareLex Token.cmp) _ a.tokens b.tokens c.tokens ab bc

theorem cmp_eq_iff {a b : Version} : a.cmp b = .eq ↔ a = b := by
  constructor
  · intro same
    have tokens := @Std.LawfulEqCmp.eq_of_compare _ (List.compareLex Token.cmp) _ _ _ same
    exact congrArg Version.mk tokens
  · rintro rfl
    exact @Std.ReflCmp.compare_self _ (List.compareLex Token.cmp) _ a.tokens

instance : Std.TransCmp cmp where
  eq_swap := cmp_swap _ _
  isLE_trans := cmp_trans

instance : Std.LawfulEqCmp cmp where
  compare_self := cmp_eq_iff.mpr rfl
  eq_of_compare := cmp_eq_iff.mp

theorem cmp_total (a b : Version) : (a.cmp b).isLE ∨ (b.cmp a).isLE := by
  rw [cmp_swap b a]
  cases a.cmp b with
  | lt => exact .inl rfl
  | eq => exact .inl rfl
  | gt => exact .inr rfl

end Version

/-! ### Ranges -/

namespace VersionRange

/-- Every bound that is there can be read, and the version is within it. -/
structure Within (r : VersionRange) (v : Version) : Prop where
  startIncluding : ∀ s ∈ r.startIncluding, ∃ b, Version.parse s = some b ∧ (b.cmp v).isLE
  startExcluding : ∀ s ∈ r.startExcluding, ∃ b, Version.parse s = some b ∧ b.cmp v = .lt
  endIncluding : ∀ s ∈ r.endIncluding, ∃ b, Version.parse s = some b ∧ (v.cmp b).isLE
  endExcluding : ∀ s ∈ r.endExcluding, ∃ b, Version.parse s = some b ∧ v.cmp b = .lt

theorem checkBound_eq_true {bound : Option String} {beyond : Version → Bool}
    {rest : Option Bool} :
    checkBound bound beyond rest = some true ↔
      (∀ s ∈ bound, ∃ b, Version.parse s = some b ∧ beyond b = false) ∧ rest = some true := by
  cases bound with
  | none => exact (and_iff_right fun s mem => by cases mem).symm
  | some s =>
    unfold checkBound
    rw [Option.bind_eq_some_iff]
    constructor
    · rintro ⟨b, read, answer⟩
      cases past : beyond b with
      | true =>
        rw [past, if_pos rfl] at answer
        cases answer
      | false =>
        rw [past, if_neg Bool.false_ne_true] at answer
        refine ⟨fun t mem => ?_, answer⟩
        cases mem
        exact ⟨b, read, past⟩
    · rintro ⟨within, answer⟩
      obtain ⟨b, read, inside⟩ := within s rfl
      refine ⟨b, read, ?_⟩
      rw [inside, if_neg Bool.false_ne_true]
      exact answer

theorem contains_iff {r : VersionRange} (ranged : r.exact_ = none) (text : String) :
    r.contains text = some true ↔ ∃ v, Version.parse text = some v ∧ r.Within v := by
  have least (v b : Version) : (v.cmp b == .lt) = false ↔ (b.cmp v).isLE := by
    rw [Version.cmp_swap b v]
    cases v.cmp b <;> decide
  have above (v b : Version) : (v.cmp b != .gt) = false ↔ b.cmp v = .lt := by
    rw [Version.cmp_swap b v]
    cases v.cmp b <;> decide
  have most (v b : Version) : (v.cmp b == .gt) = false ↔ (v.cmp b).isLE := by
    cases v.cmp b <;> decide
  have below (v b : Version) : (v.cmp b != .lt) = false ↔ v.cmp b = .lt := by
    cases v.cmp b <;> decide
  unfold contains
  rw [Option.bind_eq_some_iff]
  refine exists_congr fun v => and_congr_right fun _ => ?_
  rw [ranged]
  dsimp only
  rw [checkBound_eq_true, checkBound_eq_true, checkBound_eq_true, checkBound_eq_true]
  simp only [least, above, most, below]
  constructor
  · rintro ⟨startIncluding, startExcluding, endIncluding, endExcluding, -⟩
    exact ⟨startIncluding, startExcluding, endIncluding, endExcluding⟩
  · rintro ⟨startIncluding, startExcluding, endIncluding, endExcluding⟩
    exact ⟨startIncluding, startExcluding, endIncluding, endExcluding, trivial⟩

theorem contains_exact_iff {r : VersionRange} {e : String} (exact_ : r.exact_ = some e)
    (text : String) :
    r.contains text = some true ↔ ∃ v, Version.parse text = some v ∧ Version.parse e = some v := by
  unfold contains
  rw [Option.bind_eq_some_iff]
  refine exists_congr fun v => and_congr_right fun _ => ?_
  rw [exact_]
  dsimp only
  rw [Option.map_eq_some_iff]
  constructor
  · rintro ⟨b, read, same⟩
    rw [of_decide_eq_true same]
    exact read
  · intro read
    exact ⟨v, read, decide_eq_true rfl⟩

/-- What lies between two versions within a range is within it. -/
theorem Within.between {r : VersionRange} {a b c : Version} (first : r.Within a)
    (last : r.Within c) (ab : (a.cmp b).isLE) (bc : (b.cmp c).isLE) : r.Within b := by
  refine ⟨?_, ?_, ?_, ?_⟩
  · intro s mem
    obtain ⟨bound, read, low⟩ := first.startIncluding s mem
    exact ⟨bound, read, Version.cmp_trans low ab⟩
  · intro s mem
    obtain ⟨bound, read, low⟩ := first.startExcluding s mem
    exact ⟨bound, read, Std.TransCmp.lt_of_lt_of_isLE low ab⟩
  · intro s mem
    obtain ⟨bound, read, high⟩ := last.endIncluding s mem
    exact ⟨bound, read, Version.cmp_trans bc high⟩
  · intro s mem
    obtain ⟨bound, read, high⟩ := last.endExcluding s mem
    exact ⟨bound, read, Std.TransCmp.lt_of_isLE_of_lt bc high⟩

end VersionRange

/-! ### Spellings -/

/-- Neither a digit nor a letter. -/
def IsSeparator (c : Char) : Prop := c.isDigit = false ∧ c.isAlpha = false

/-- One change of spelling: another separator, the other case of a letter, or zeros in front of a
run of digits. -/
inductive Respelled : List Char → List Char → Prop
  | separator (front back : List Char) {c d : Char} (old : IsSeparator c) (new : IsSeparator d) :
    Respelled (front ++ c :: back) (front ++ d :: back)
  | letterCase (front back : List Char) {c d : Char} (old : c.isAlpha = true)
    (new : d.isAlpha = true) (same : c.toLower = d.toLower) :
    Respelled (front ++ c :: back) (front ++ d :: back)
  | zeros (front back : List Char) (n : Nat) {d : Char} (digit : d.isDigit = true)
    (first : ∀ c ∈ front.getLast?, c.isDigit = false) :
    Respelled (front ++ d :: back) (front ++ (List.replicate n '0' ++ d :: back))

/-- Two spellings of one version, some changes apart. -/
def SameSpelling (s t : String) : Prop := Relation.EqvGen Respelled s.toList t.toList

theorem tokensFrom_cons (run : Option Token) (c : Char) :
    ∃ out run', (∀ back, tokensFrom run (c :: back) = out ++ tokensFrom run' back) ∧
      ∀ n, run' = some (.num n) → c.isDigit = true := by
  have begun : ∀ n, Token.begin? c = some (.num n) → c.isDigit = true := by
    intro n number
    unfold Token.begin? at number
    split at number
    next digit => exact digit
    next =>
      split at number
      next => cases number
      next => cases number
  cases run with
  | none => exact ⟨[], Token.begin? c, fun back => rfl, begun⟩
  | some t =>
    cases extended : t.extend c with
    | none =>
      refine ⟨[t], Token.begin? c, fun back => ?_, begun⟩
      rw [tokensFrom, extended]
      rfl
    | some t' =>
      refine ⟨[], some t', fun back => ?_, fun n number => ?_⟩
      · rw [tokensFrom, extended]
        rfl
      · cases number
        by_contra noDigit
        cases t with
        | num m =>
          have ended : (Token.num m).extend c = none := if_neg noDigit
          rw [ended] at extended
          cases extended
        | alpha s =>
          by_cases letter : c.isAlpha = true
          · have longer : (Token.alpha s).extend c = some (.alpha (s.push c.toLower)) :=
              if_pos letter
            rw [longer] at extended
            cases extended
          · have ended : (Token.alpha s).extend c = none := if_neg letter
            rw [ended] at extended
            cases extended

/-- A front leaves the tokens it has ended and the run it is in, a number only behind a digit. -/
theorem tokensFrom_append (front : List Char) :
    ∃ out run, (∀ back, tokensFrom none (front ++ back) = out ++ tokensFrom run back) ∧
      ∀ n, run = some (.num n) → ∃ c ∈ front.getLast?, c.isDigit = true := by
  induction front using List.reverseRecOn with
  | nil => exact ⟨[], none, fun back => rfl, fun n number => (by cases number)⟩
  | append_singleton front c ih =>
    obtain ⟨out, run, front_, -⟩ := ih
    obtain ⟨more, run', step, number⟩ := tokensFrom_cons run c
    refine ⟨out ++ more, run', fun back => ?_, fun n num => ⟨c, ?_, number n num⟩⟩
    · rw [List.append_assoc, List.singleton_append, front_, step, List.append_assoc]
    · rw [List.getLast?_concat]
      rfl

theorem tokensFrom_separator (run : Option Token) {c : Char} (separator : IsSeparator c)
    (back : List Char) : tokensFrom run (c :: back) = run.toList ++ tokensFrom none back := by
  obtain ⟨noDigit, noLetter⟩ := separator
  have begun : Token.begin? c = none := by simp [Token.begin?, noDigit, noLetter]
  cases run with
  | none => rw [tokensFrom, begun]; rfl
  | some t =>
    have ended : t.extend c = none := by cases t <;> simp [Token.extend, noDigit, noLetter]
    rw [tokensFrom, ended, begun]
    rfl

theorem not_isDigit_of_isAlpha {c : Char} (letter : c.isAlpha = true) : c.isDigit = false := by
  rw [Bool.eq_false_iff]
  intro digit
  delta Char.isAlpha Char.isUpper Char.isLower at letter
  simp only [Char.isDigit, Bool.or_eq_true, Bool.and_eq_true, decide_eq_true_eq,
    UInt32.le_iff_toNat_le] at letter digit
  have digits : (c.val.toNat ≤ 57) := digit.2
  rcases letter with ⟨upper, -⟩ | ⟨lower, -⟩
  · have above : 65 ≤ c.val.toNat := upper
    omega
  · have above : 97 ≤ c.val.toNat := lower
    omega

theorem tokensFrom_letter (run : Option Token) {c d : Char} (old : c.isAlpha = true)
    (new : d.isAlpha = true) (same : c.toLower = d.toLower) (back : List Char) :
    tokensFrom run (c :: back) = tokensFrom run (d :: back) := by
  have begun : Token.begin? c = Token.begin? d := by
    simp [Token.begin?, not_isDigit_of_isAlpha old, not_isDigit_of_isAlpha new, old, new, same]
  cases run with
  | none => rw [tokensFrom, tokensFrom, begun]
  | some t =>
    have extended : t.extend c = t.extend d := by
      cases t with
      | num n => simp [Token.extend, not_isDigit_of_isAlpha old, not_isDigit_of_isAlpha new]
      | alpha s => simp [Token.extend, old, new, same]
    rw [tokensFrom, tokensFrom, begun, extended]

theorem tokensFrom_zeros (n : Nat) {d : Char} (digit : d.isDigit = true) (back : List Char) :
    tokensFrom (some (.num 0)) (List.replicate n '0' ++ d :: back) =
      tokensFrom (some (.num (Token.pushDigit 0 d))) back := by
  induction n with
  | zero =>
    have extended : (Token.num 0).extend d = some (.num (Token.pushDigit 0 d)) := if_pos digit
    rw [List.replicate_zero, List.nil_append, tokensFrom, extended]
  | succ n ih =>
    have extended : (Token.num 0).extend '0' = some (.num 0) := rfl
    rw [List.replicate_succ, List.cons_append, tokensFrom, extended]
    exact ih

/-- A digit that begins a run, with zeros in front of it or none. -/
theorem tokensFrom_begin {run : Option Token} (notNumber : ∀ n, run ≠ some (.num n)) (n : Nat)
    {d : Char} (digit : d.isDigit = true) (back : List Char) :
    tokensFrom run (List.replicate n '0' ++ d :: back) =
      run.toList ++ tokensFrom (some (.num (Token.pushDigit 0 d))) back := by
  have begins (c : Char) (digit : c.isDigit = true) (rest : List Char) :
      tokensFrom run (c :: rest) =
        run.toList ++ tokensFrom (some (.num (Token.pushDigit 0 c))) rest := by
    have begun : Token.begin? c = some (.num (Token.pushDigit 0 c)) := if_pos digit
    cases run with
    | none => rw [tokensFrom, begun]; rfl
    | some t =>
      cases t with
      | num m => exact absurd rfl (notNumber m)
      | alpha s =>
        have ended : (Token.alpha s).extend c = none := by
          refine if_neg fun letter => ?_
          rw [not_isDigit_of_isAlpha letter] at digit
          cases digit
        rw [tokensFrom, ended, begun]
        rfl
  cases n with
  | zero => exact begins d digit back
  | succ n =>
    rw [List.replicate_succ, List.cons_append, begins '0' rfl]
    exact congrArg _ (tokensFrom_zeros n digit back)

theorem Respelled.tokens {s t : List Char} (respelled : Respelled s t) :
    tokensFrom none s = tokensFrom none t := by
  cases respelled with
  | separator front back old new =>
    obtain ⟨out, run, front_, -⟩ := tokensFrom_append front
    rw [front_, front_, tokensFrom_separator run old, tokensFrom_separator run new]
  | letterCase front back old new same =>
    obtain ⟨out, run, front_, -⟩ := tokensFrom_append front
    rw [front_, front_, tokensFrom_letter run old new same]
  | @zeros front back n d digit first =>
    obtain ⟨out, run, front_, number⟩ := tokensFrom_append front
    have notNumber : ∀ n, run ≠ some (.num n) := by
      intro m num
      obtain ⟨c, last, isDigit⟩ := number m num
      rw [first c last] at isDigit
      cases isDigit
    rw [front_, front_, tokensFrom_begin notNumber n digit]
    exact congrArg _ (tokensFrom_begin notNumber 0 digit back)

theorem Respelled.digits {s t : List Char} (respelled : Respelled s t) :
    s.any Char.isDigit = t.any Char.isDigit := by
  cases respelled with
  | separator front back old new =>
    rw [List.any_append, List.any_append, List.any_cons, List.any_cons, old.1, new.1]
  | letterCase front back old new same =>
    rw [List.any_append, List.any_append, List.any_cons, List.any_cons,
      not_isDigit_of_isAlpha old, not_isDigit_of_isAlpha new]
  | zeros front back n digit first =>
    rw [List.any_append, List.any_append, List.any_append, List.any_cons, digit]
    simp

theorem SameSpelling.parse_eq {s t : String} (same : SameSpelling s t) :
    Version.parse s = Version.parse t := by
  have both : tokensFrom none s.toList = tokensFrom none t.toList ∧
      s.toList.any Char.isDigit = t.toList.any Char.isDigit := by
    unfold SameSpelling at same
    generalize s.toList = chars at same
    generalize t.toList = chars' at same
    induction same with
    | rel _ _ respelled => exact ⟨respelled.tokens, respelled.digits⟩
    | refl _ => exact ⟨rfl, rfl⟩
    | symm _ _ _ ih => exact ⟨ih.1.symm, ih.2.symm⟩
    | trans _ _ _ _ _ ih ih' => exact ⟨ih.1.trans ih'.1, ih.2.trans ih'.2⟩
  unfold Version.parse
  rw [both.1, both.2]

namespace VersionRange

/-- The same bounds, each perhaps in another spelling. -/
structure SameSpelling (r r' : VersionRange) : Prop where
  startIncluding : Option.Rel NetObserver.SameSpelling r.startIncluding r'.startIncluding
  startExcluding : Option.Rel NetObserver.SameSpelling r.startExcluding r'.startExcluding
  endIncluding : Option.Rel NetObserver.SameSpelling r.endIncluding r'.endIncluding
  endExcluding : Option.Rel NetObserver.SameSpelling r.endExcluding r'.endExcluding
  exact_ : Option.Rel NetObserver.SameSpelling r.exact_ r'.exact_

theorem checkBound_respelled {bound bound' : Option String}
    (same : Option.Rel NetObserver.SameSpelling bound bound') (beyond : Version → Bool)
    (rest : Option Bool) : checkBound bound beyond rest = checkBound bound' beyond rest := by
  cases same with
  | none => rfl
  | some same =>
    unfold checkBound
    dsimp only
    rw [same.parse_eq]

theorem contains_respelled {r r' : VersionRange} (range : r.SameSpelling r') {text text' : String}
    (same : NetObserver.SameSpelling text text') : r.contains text = r'.contains text' := by
  obtain ⟨startIncluding, startExcluding, endIncluding, endExcluding, exact_⟩ := range
  unfold contains
  rw [same.parse_eq]
  refine congrArg _ (funext fun v => ?_)
  rw [checkBound_respelled startIncluding, checkBound_respelled startExcluding,
    checkBound_respelled endIncluding, checkBound_respelled endExcluding]
  generalize r.exact_ = e at exact_
  generalize r'.exact_ = e' at exact_
  cases exact_ with
  | none => rfl
  | some same =>
    dsimp only
    rw [same.parse_eq]

end VersionRange

/-- The comparison is a total order on the parsed versions; a range without an exact version contains
a text exactly when the text and every bound can be read and the version is within the bounds, so
what it contains has no holes; an exact version contains its own tokens only; and no other spelling
of a text or of a bound changes an answer. -/
theorem version_order_lawful :
    (∀ a b : Version, (a.cmp b = .eq ↔ a = b) ∧ b.cmp a = (a.cmp b).swap ∧
      ((a.cmp b).isLE ∨ (b.cmp a).isLE)) ∧
    (∀ a b c : Version, (a.cmp b).isLE → (b.cmp c).isLE → (a.cmp c).isLE) ∧
    (∀ r : VersionRange, r.exact_ = none →
      (∀ text, r.contains text = some true ↔ ∃ v, Version.parse text = some v ∧ r.Within v) ∧
      ∀ first text last a b c, Version.parse first = some a → Version.parse text = some b →
        Version.parse last = some c → (a.cmp b).isLE → (b.cmp c).isLE →
        r.contains first = some true → r.contains last = some true → r.contains text = some true) ∧
    (∀ (r : VersionRange) (e : String), r.exact_ = some e → ∀ text, r.contains text = some true ↔
      ∃ v, Version.parse text = some v ∧ Version.parse e = some v) ∧
    (∀ s t, SameSpelling s t → Version.parse s = Version.parse t ∧
      ∀ r r' : VersionRange, r.SameSpelling r' → r.contains s = r'.contains t) := by
  refine ⟨fun a b => ⟨Version.cmp_eq_iff, Version.cmp_swap b a, Version.cmp_total a b⟩,
    fun a b c => Version.cmp_trans, fun r ranged => ⟨VersionRange.contains_iff ranged, ?_⟩,
    fun r e => VersionRange.contains_exact_iff, fun s t same => ⟨same.parse_eq, ?_⟩⟩
  · intro first text last a b c readA readB readC ab bc low high
    rw [VersionRange.contains_iff ranged] at low high ⊢
    obtain ⟨a', readA', within⟩ := low
    obtain ⟨c', readC', within'⟩ := high
    cases readA.symm.trans readA'
    cases readC.symm.trans readC'
    exact ⟨b, readB, within.between within' ab bc⟩
  · intro r r' range
    exact VersionRange.contains_respelled range same

/-- From 7.2 on, below 7.4. -/
def sevenTwo : VersionRange := ⟨some "7.2", none, none, some "7.4", none⟩

theorem version_order_lawful_sevenTwo :
    sevenTwo.contains "7.2p2" = some true ∧ sevenTwo.contains "7_002P2" = some true := by
  have between : sevenTwo.contains "7.2p2" = some true :=
    (version_order_lawful.2.2.1 sevenTwo rfl).2 "7.2" "7.2p2" "7.3" ⟨[.num 7, .num 2]⟩
      ⟨[.num 7, .num 2, .alpha "p", .num 2]⟩ ⟨[.num 7, .num 3]⟩ (by decide) (by decide) (by decide)
      (by decide) (by decide) (by decide) (by decide)
  refine ⟨between, ?_⟩
  have separator : Respelled "7.2p2".toList "7_2p2".toList :=
    .separator ['7'] ['2', 'p', '2'] ⟨rfl, rfl⟩ ⟨rfl, rfl⟩
  have zeros : Respelled "7_2p2".toList "7_002p2".toList :=
    .zeros ['7', '_'] ['p', '2'] 2 rfl (fun c mem => by cases mem; rfl)
  have letter : Respelled "7_002p2".toList "7_002P2".toList :=
    .letterCase ['7', '_', '0', '0', '2'] ['2'] rfl rfl rfl
  have same : SameSpelling "7.2p2" "7_002P2" :=
    ((Relation.EqvGen.rel _ _ separator).trans _ _ _ (.rel _ _ zeros)).trans _ _ _ (.rel _ _ letter)
  have refl : ∀ bound : Option String, Option.Rel SameSpelling bound bound := by
    intro bound
    cases bound with
    | none => exact .none
    | some s => exact .some (.refl _)
  rw [← (version_order_lawful.2.2.2.2 "7.2p2" "7_002P2" same).2 sevenTwo sevenTwo
    ⟨refl _, refl _, refl _, refl _, refl _⟩]
  exact between

end NetObserver
