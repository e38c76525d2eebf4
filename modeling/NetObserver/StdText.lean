import Mathlib.Data.List.Infix
import NetObserver.Dhcp
import NetObserver.Mdns

/-! Texts as the standard library trims and lowers them. -/

namespace NetObserver
namespace StdText

def trimStart (s : List Char) : List Char := s.dropWhile Dhcp.isWhitespace

def trimEnd (s : List Char) : List Char := s.rdropWhile Dhcp.isWhitespace

def trim (s : List Char) : List Char := trimEnd (trimStart s)

theorem trim_eq_self {s : List Char} (plain : ∀ c ∈ s, Dhcp.isWhitespace c = false) : trim s = s := by
  have front : trimStart s = s := by
    cases s with
    | nil => rfl
    | cons c rest => exact List.dropWhile_cons_of_neg (by simp [plain c List.mem_cons_self])
  unfold trim
  rw [front, trimEnd, List.rdropWhile_eq_self_iff]
  intro some_
  simp [plain _ (List.getLast_mem some_)]

/-- `trim().to_ascii_lowercase()`. -/
def trimLower (s : String) : String := String.ofList ((trim s.toList).map Char.toLower)

/-- `trim().is_empty()`. -/
def isBlank (s : String) : Bool := (trim s.toList).isEmpty

/-- `str::lines`: the last line may lack its end, and a return before an end belongs to it. -/
def lines (s : List Char) : List (List Char) :=
  let parts := s.splitOn '\n'
  let last := parts.getLastD []
  (parts.dropLast.map fun l => if l.getLast? = some '\r' then l.dropLast else l) ++
    if last.isEmpty then [] else [last]

/-- `str::split_whitespace`. -/
def splitWhitespace (s : List Char) : List (List Char) :=
  (s.splitOnP Dhcp.isWhitespace).filter fun word => !word.isEmpty

theorem splitWhitespace_cons {c : Char} {word rest : List Char}
    (plain : ∀ d ∈ word, Dhcp.isWhitespace d = false) (some_ : word ≠ [])
    (space : Dhcp.isWhitespace c = true) :
    splitWhitespace (word ++ c :: rest) = word :: splitWhitespace rest := by
  unfold splitWhitespace
  rw [List.splitOnP_append_cons_of_forall_mem plain c space, List.filter_cons_of_pos]
  simpa using some_

theorem splitWhitespace_space {c : Char} {rest : List Char} (space : Dhcp.isWhitespace c = true) :
    splitWhitespace (c :: rest) = splitWhitespace rest := by
  have none_ : ∀ d ∈ ([] : List Char), Dhcp.isWhitespace d = false := fun d mem => nomatch mem
  have split : (c :: rest).splitOnP Dhcp.isWhitespace = [] :: rest.splitOnP Dhcp.isWhitespace :=
    List.splitOnP_append_cons_of_forall_mem none_ c space rest
  unfold splitWhitespace
  rw [split, List.filter_cons_of_neg]
  exact Bool.not_eq_true _ ▸ rfl

theorem splitWhitespace_word {word : List Char} (plain : ∀ d ∈ word, Dhcp.isWhitespace d = false)
    (some_ : word ≠ []) : splitWhitespace word = [word] := by
  unfold splitWhitespace
  rw [List.splitOnP_eq_singleton plain, List.filter_cons_of_pos, List.filter_nil]
  simpa using some_

/-- What is before the first separator, and what is behind it if there is one. -/
def splitOnce (separator : Char) (s : List Char) : List Char × Option (List Char) :=
  match s.dropWhile (· != separator) with
  | [] => (s, none)
  | _ :: behind => (s.takeWhile (· != separator), some behind)

/-- `str::contains`. -/
def contains (needle s : List Char) : Bool := s.tails.any needle.isPrefixOf

theorem contains_iff {needle s : List Char} : contains needle s = true ↔ needle <:+: s := by
  simp only [contains, List.any_eq_true, List.mem_tails, List.isPrefixOf_iff_prefix]
  constructor
  · rintro ⟨tail, suffix, front⟩
    exact front.isInfix.trans suffix.isInfix
  · rintro ⟨before, behind, rfl⟩
    refine ⟨needle ++ behind, ⟨before, ?_⟩, List.prefix_append _ _⟩
    rw [List.append_assoc]

/-- What is behind the first place where the text holds the needle. -/
def behindFirst (needle s : List Char) : Option (List Char) :=
  (s.tails.find? needle.isPrefixOf).map (List.drop needle.length)

/-- `str::split_once` at a text. -/
def splitOnceAt (separator : List Char) : List Char → Option (List Char × List Char)
  | [] => if separator.isPrefixOf [] then some ([], []) else none
  | c :: s =>
    if separator.isPrefixOf (c :: s) then some ([], (c :: s).drop separator.length)
    else (splitOnceAt separator s).map fun (before, behind) => (c :: before, behind)

theorem splitOnceAt_absent {separator s : List Char} (absent : ¬ separator <:+: s) :
    splitOnceAt separator s = none := by
  induction s with
  | nil =>
    have front : ¬ separator <+: [] := fun front => absent front.isInfix
    rw [splitOnceAt, if_neg (by rwa [List.isPrefixOf_iff_prefix])]
  | cons c s ih =>
    rw [List.infix_cons_iff, not_or] at absent
    rw [splitOnceAt, if_neg (by rw [List.isPrefixOf_iff_prefix]; exact absent.1), ih absent.2]
    rfl

/-- The text is split where the separator first ends. -/
theorem splitOnceAt_append {separator a : List Char} (some_ : separator ≠ [])
    (absent : ¬ separator <:+: a ++ separator.dropLast) (b : List Char) :
    splitOnceAt separator (a ++ (separator ++ b)) = some (a, b) := by
  induction a with
  | nil =>
    cases separator with
    | nil => exact absurd rfl some_
    | cons c separator =>
      rw [List.nil_append, List.cons_append, splitOnceAt, if_pos]
      · simp
      · rw [List.isPrefixOf_iff_prefix]
        exact List.prefix_append (c :: separator) b
  | cons c a ih =>
    rw [List.cons_append, List.infix_cons_iff, not_or] at absent
    have later : ¬ separator <+: c :: (a ++ (separator ++ b)) := by
      intro front
      apply absent.1
      have shorter : c :: (a ++ separator.dropLast) <+: c :: (a ++ (separator ++ b)) := by
        rw [List.cons_prefix_cons, List.prefix_append_right_inj]
        exact ⟨rfl, (List.dropLast_prefix separator).trans (List.prefix_append separator b)⟩
      apply List.prefix_of_prefix_length_le front shorter
      simp only [List.length_cons, List.length_append, List.length_dropLast]
      omega
    rw [List.cons_append, splitOnceAt, if_neg (by rwa [List.isPrefixOf_iff_prefix]), ih absent.2]
    rfl

theorem splitOnceAt_some {separator s a b : List Char}
    (split : splitOnceAt separator s = some (a, b)) : s = a ++ (separator ++ b) := by
  induction s generalizing a b with
  | nil =>
    rw [splitOnceAt] at split
    split at split
    next front =>
      cases split
      rw [List.isPrefixOf_iff_prefix, List.prefix_nil] at front
      rw [front]
      rfl
    next => cases split
  | cons c s ih =>
    rw [splitOnceAt] at split
    split at split
    next front =>
      cases split
      obtain ⟨behind, eq⟩ := List.isPrefixOf_iff_prefix.mp front
      rw [← eq, List.drop_left, List.nil_append]
    next =>
      obtain ⟨⟨before, behind⟩, rest, eq⟩ := Option.map_eq_some_iff.mp split
      cases eq
      rw [ih rest, List.cons_append]

/-- The first line, without the return before its end. -/
theorem lines_headD_cases (s : List Char) :
    (lines s).headD [] = s ∨
      ∃ a b, s = a ++ '\n' :: b ∧
        (lines s).headD [] = if a.getLast? = some '\r' then a.dropLast else a := by
  unfold lines
  by_cases mem : '\n' ∈ s
  · obtain ⟨a, b, rfl, absent⟩ := List.eq_append_cons_of_mem mem
    refine .inr ⟨a, b, rfl, ?_⟩
    have plain : ∀ x ∈ a, (x == '\n') = false := by
      intro x mem
      rw [beq_eq_false_iff_ne]
      intro same
      exact absent (same ▸ mem)
    have more : b.splitOn '\n' ≠ [] := List.splitOn_ne_nil _ _
    have first : (a ++ '\n' :: b).splitOn '\n' = a :: b.splitOn '\n' := by
      rw [List.splitOn_eq_splitOnP, List.splitOnP_append_cons_of_forall_mem plain _ rfl,
        ← List.splitOn_eq_splitOnP]
    simp only [first, List.dropLast_cons_of_ne_nil more, List.map_cons, List.cons_append,
      List.headD_cons]
  · left
    have plain : ∀ x ∈ s, (x == '\n') = false := by
      intro x at_
      rw [beq_eq_false_iff_ne]
      intro same
      exact mem (same ▸ at_)
    have whole : s.splitOn '\n' = [s] := by
      rw [List.splitOn_eq_splitOnP, List.splitOnP_eq_singleton plain]
    simp only [whole]
    cases s with
    | nil => rfl
    | cons c s => rfl

theorem splitOnce_absent {c : Char} {s : List Char} (absent : c ∉ s) : splitOnce c s = (s, none) := by
  have all : s.dropWhile (· != c) = [] := by
    rw [List.dropWhile_eq_nil_iff]
    intro d mem
    simp only [bne_iff_ne]
    intro same
    exact absent (same ▸ mem)
  rw [splitOnce, all]

theorem splitOnce_append {c : Char} {a : List Char} (absent : c ∉ a) (b : List Char) :
    splitOnce c (a ++ c :: b) = (a, some b) := by
  have before : ∀ d ∈ a, (d != c) = true := by
    intro d mem
    rw [bne_iff_ne]
    intro same
    exact absent (same ▸ mem)
  rw [splitOnce, List.dropWhile_append_of_pos before, List.dropWhile_cons_of_neg (by simp),
    List.takeWhile_append_of_pos before, List.takeWhile_cons_of_neg (by simp), List.append_nil]

/-- Either the separator is absent, or it is where the text is split. -/
theorem splitOnce_cases (c : Char) (s : List Char) :
    (c ∉ s ∧ splitOnce c s = (s, none)) ∨
      ∃ a b, c ∉ a ∧ s = a ++ c :: b ∧ splitOnce c s = (a, some b) := by
  by_cases mem : c ∈ s
  · obtain ⟨a, b, rfl, absent⟩ := List.eq_append_cons_of_mem mem
    exact .inr ⟨a, b, absent, rfl, splitOnce_append absent b⟩
  · exact .inl ⟨mem, splitOnce_absent mem⟩

theorem splitOnce_suffix {c : Char} {s behind : List Char} (split : (splitOnce c s).2 = some behind) :
    behind <:+ s := by
  rcases splitOnce_cases c s with ⟨_, none_⟩ | ⟨a, b, _, rfl, some_⟩
  · rw [none_] at split
    cases split
  · rw [some_] at split
    cases split
    exact ⟨a ++ [c], by simp⟩

theorem splitOnce_prefix (c : Char) (s : List Char) : (splitOnce c s).1 <+: s := by
  rcases splitOnce_cases c s with ⟨_, none_⟩ | ⟨a, b, _, rfl, some_⟩
  · rw [none_]
  · rw [some_]
    exact List.prefix_append a _

/-- `u8::is_ascii_whitespace`. -/
def isAsciiWhitespace (c : Char) : Bool :=
  c == '\t' || c == '\n' || c == '\x0c' || c == '\r' || c == ' '

theorem isAsciiWhitespace_of_lt {c : Char} (high : 32 < c.toNat) : isAsciiWhitespace c = false := by
  apply Bool.eq_false_iff.mpr
  intro space
  simp only [isAsciiWhitespace, Bool.or_eq_true, beq_iff_eq] at space
  obtain (((rfl | rfl) | rfl) | rfl) | rfl := space
  all_goals exact absurd high (by decide)

/-- `split_ascii_whitespace`. -/
def asciiWords (s : List Char) : List (List Char) :=
  (s.splitOnP isAsciiWhitespace).filter fun word => !word.isEmpty

/-- `str::escape_default`. -/
def escapeDefault (s : List Char) : List Char :=
  s.flatMap fun c =>
    if c = '\t' then ['\\', 't']
    else if c = '\r' then ['\\', 'r']
    else if c = '\n' then ['\\', 'n']
    else if c = '\x27' ∨ c = '\x22' ∨ c = '\\' then ['\\', c]
    else if 0x20 ≤ c.toNat ∧ c.toNat ≤ 0x7E then [c]
    else '\\' :: 'u' :: '\x7b' :: (Nat.toDigits 16 c.toNat ++ ['\x7d'])

/-- `from_str_radix(_, 10)` of an unsigned type. -/
def parseUnsigned (max : Nat) (s : List Char) : Option Nat :=
  let digits := if s.head? = some '+' then s.tail else s
  if digits ≠ [] ∧ digits.all Char.isDigit then
    let value := Nat.ofDigitChars 10 digits 0
    if value ≤ max then some value else none
  else none

end StdText

end NetObserver
