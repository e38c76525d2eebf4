import NetObserver.LogColours
import NetObserver.LogInstant

/-! Lines as the proxy writes them, and which of them the parser reads back as they were. -/

namespace NetObserver
namespace SingboxLog

open Machine Calendar

/-- A number in at least so many decimal digits. -/
def padded (width n : Nat) : List Char := (Nat.toDigits 10 n).leftpad width '0'

theorem isDigit_padded {width n : Nat} {c : Char} (mem : c ∈ padded width n) : c.isDigit = true := by
  rcases List.mem_append.mp mem with pad | digit
  · rw [List.eq_of_mem_replicate pad]
    rfl
  · exact Nat.isDigit_of_mem_toDigits (by omega) (by omega) digit

theorem padded_ne_nil (width n : Nat) : padded width n ≠ [] := by
  intro empty
  exact Nat.toDigits_ne_nil (List.append_eq_nil_iff.mp empty).2

theorem ofDigitChars_padded (width n : Nat) : Nat.ofDigitChars 10 (padded width n) 0 = n := by
  unfold padded List.leftpad
  rw [Nat.ofDigitChars_append, Nat.ofDigitChars_replicate_zero, Nat.mul_zero,
    Nat.ofDigitChars_ten_toDigits]

theorem notMem_padded {width n : Nat} {c : Char} (other : c.isDigit = false) : c ∉ padded width n := by
  intro mem
  rw [isDigit_padded mem] at other
  cases other

theorem parseUnsigned_padded {width n most : Nat} (small : n ≤ most) :
    StdText.parseUnsigned most (padded width n) = some n := by
  have signless : (padded width n).head? ≠ some '+' := by
    intro plus
    exact notMem_padded (by decide) (List.mem_of_head? plus)
  have digits : (padded width n).all Char.isDigit = true :=
    List.all_eq_true.mpr fun c mem => isDigit_padded mem
  unfold StdText.parseUnsigned
  simp only [if_neg signless, ofDigitChars_padded]
  rw [if_pos ⟨padded_ne_nil width n, digits⟩, if_pos small]

theorem parseI64_padded {width n : Nat} (fits : (n : Int) ≤ i64Max) :
    parseI64 (padded width n) = some (n : Int) := by
  have value := ofDigitChars_padded width n
  rw [← value] at fits
  rw [parseI64_digits (padded_ne_nil width n) (fun c mem => isDigit_padded mem) fits, value]

theorem length_padded {width n : Nat} (some_ : 0 < width) (small : n < 10 ^ width) :
    (padded width n).length = width := by
  have digits : (Nat.toDigits 10 n).length ≤ width :=
    (Nat.length_toDigits_le_iff (by omega) some_).mpr small
  rw [padded, List.length_leftpad]
  omega

theorem length_padded_two {n : Nat} (small : n ≤ 99) : (padded 2 n).length = 2 :=
  length_padded (by omega) (by omega)

structure Offset where
  west : Bool
  hours : Nat
  minutes : Nat
  within : hours ≤ 23 ∧ minutes ≤ 59

namespace Offset

def text (o : Offset) : List Char :=
  (if o.west then '-' else '+') :: (padded 2 o.hours ++ padded 2 o.minutes)

def secs (o : Offset) : Int :=
  (if o.west then -1 else 1) * ((o.hours : Int) * 3600 + (o.minutes : Int) * 60)

theorem notMem_text {c : Char} (other : c.isDigit = false) (plus : c ≠ '+') (minus : c ≠ '-')
    (o : Offset) : c ∉ o.text := by
  unfold text
  split
  · simp [notMem_padded other, minus]
  · simp [notMem_padded other, plus]

theorem parseOffset_text (o : Offset) : parseOffset o.text = some o.secs := by
  obtain ⟨west, hours, minutes, hoursFit, minutesFit⟩ := o
  have hoursLength := length_padded_two (show hours ≤ 99 by omega)
  have minutesLength := length_padded_two (show minutes ≤ 99 by omega)
  have sign : signOf ((if west then '-' else '+') :: (padded 2 hours ++ padded 2 minutes)) =
      some (if west then -1 else 1, padded 2 hours ++ padded 2 minutes) := by
    cases west
    · rfl
    · rfl
  have shape : ¬ ((padded 2 hours ++ padded 2 minutes).length ≠ 4 ∨
      ¬ (padded 2 hours ++ padded 2 minutes).all Char.isDigit) := by
    rw [not_or, not_not, not_not, List.length_append, hoursLength, minutesLength, List.all_append,
      List.all_eq_true.mpr fun c mem => isDigit_padded mem,
      List.all_eq_true.mpr fun c mem => isDigit_padded mem]
    exact ⟨rfl, rfl⟩
  have front : (padded 2 hours ++ padded 2 minutes).take 2 = padded 2 hours :=
    List.take_left' hoursLength
  have back : (padded 2 hours ++ padded 2 minutes).drop 2 = padded 2 minutes :=
    List.drop_left' hoursLength
  have hoursSmall : ((hours : Nat) : Int) ≤ i64Max := by
    unfold i64Max
    omega
  have minutesSmall : ((minutes : Nat) : Int) ≤ i64Max := by
    unfold i64Max
    omega
  have within : ¬ ((hours : Int) > 23 ∨ (minutes : Int) > 59) := by omega
  simp only [parseOffset, text, sign, bind, Option.bind_some, if_neg shape, front, back,
    parseI64_padded hoursSmall, parseI64_padded minutesSmall, if_neg within]
  rfl

end Offset

def dateText (year month day : Nat) : List Char :=
  List.intercalate ['-'] [padded 4 year, padded 2 month, padded 2 day]

def ClockTime.text (t : ClockTime) : List Char :=
  List.intercalate [':'] [padded 2 t.hh, padded 2 t.mm, padded 2 t.ss]

theorem parseDate_text {c : CivilDay} (nonneg : 0 ≤ c.year) (fits : c.year ≤ i64Max) :
    parseDate (dateText c.year.toNat c.month c.day) = some c := by
  obtain ⟨year, month, day, months, days⟩ := c
  obtain ⟨year, rfl⟩ := Int.eq_ofNat_of_zero_le nonneg
  simp only [Int.toNat_natCast]
  have split : (dateText year month day).splitOn '-' =
      [padded 4 year, padded 2 month, padded 2 day] := by
    apply List.splitOn_intercalate '-'
    · simp [notMem_padded (show '-'.isDigit = false by decide)]
    · exact List.cons_ne_nil _ _
  have monthFits : month ≤ u32Max := by
    unfold u32Max
    omega
  have dayFits : day ≤ u32Max := by
    unfold u32Max
    omega
  simp only [parseDate, split, parseI64_padded fits, parseUnsigned_padded monthFits,
    parseUnsigned_padded dayFits, bind, Option.bind_some, dif_pos months, dif_pos days]

theorem ClockTime.parseTime_text (t : ClockTime) : parseTime t.text = some t := by
  have split : t.text.splitOn ':' = [padded 2 t.hh, padded 2 t.mm, padded 2 t.ss] := by
    apply List.splitOn_intercalate ':'
    · simp [notMem_padded (show ':'.isDigit = false by decide)]
    · exact List.cons_ne_nil _ _
  have within := t.within
  have hoursFit : t.hh ≤ u32Max := by
    unfold u32Max
    omega
  have minutesFit : t.mm ≤ u32Max := by
    unfold u32Max
    omega
  have secondsFit : t.ss ≤ u32Max := by
    unfold u32Max
    omega
  simp only [parseTime, split, parseUnsigned_padded hoursFit, parseUnsigned_padded minutesFit,
    parseUnsigned_padded secondsFit, bind, Option.bind_some, dif_pos within]

theorem notMem_dateText {c : Char} (other : c.isDigit = false) (dash : c ≠ '-')
    (year month day : Nat) : c ∉ dateText year month day := by
  simp [dateText, List.intercalate, notMem_padded other, dash]

theorem ClockTime.notMem_text {c : Char} (other : c.isDigit = false) (colon : c ≠ ':')
    (t : ClockTime) : c ∉ t.text := by
  simp [text, List.intercalate, notMem_padded other, colon]

theorem Level.parse_name (level : Level) : Level.parse level.name = some level := by
  cases level
  all_goals rfl

theorem Level.name_of_parse {token : List Char} {level : Level}
    (parsed : Level.parse token = some level) : level.name = token := by
  unfold Level.parse at parsed
  have same := List.find?_some parsed
  exact of_decide_eq_true same

theorem Level.space_notMem_name (level : Level) : ' ' ∉ level.name := by
  cases level
  all_goals decide

structure Connection where
  id : List Char
  duration : List Char
  within : ']' ∉ id ∧ ']' ∉ duration

/-- What follows the connection field. -/
inductive Saying where
  | component (name : List Char) (tag : Option (List Char)) (message : List Char)
  | bare (message : List Char)

namespace Saying

def WellFormed : Saying → Prop
  | component name tag message =>
    ' ' ∉ name ∧ '[' ∉ name ∧ (∀ t ∈ tag, ']' ∉ t) ∧ '\n' ∉ message
  | bare message =>
    '\n' ∉ message ∧ (StdText.splitOnce ' ' message).1.head? ≠ some '[' ∧
      (StdText.splitOnce ' ' message).1.getLast? ≠ some ':'

def tagPieces : Option (List Char) → List (List Char)
  | none => []
  | some tag => [['['], tag, [']']]

def pieces : Saying → List (List Char)
  | component name tag message => name :: (tagPieces tag ++ [[':'], [' '], message])
  | bare message => [message]

def text (s : Saying) : List Char := s.pieces.flatten

/-- The line a saying makes. -/
def line (tsUs : Int) (level : Level) : Saying → LogLine
  | component name tag message => ⟨tsUs, level, name, tag, message⟩
  | bare message => ⟨tsUs, level, [], none, message⟩

def tag : Saying → Option (List Char)
  | component _ tag _ => tag
  | bare _ => none

def message : Saying → List Char
  | component _ _ message => message
  | bare message => message

/-- Nothing of the saying is lost between its text and the parser: no escape, no return at its end,
no space in its tag, no white space in front, and no bracket there unless it is behind a connection
field. -/
structure Kept (s : Saying) (connected : Bool) : Prop where
  plain : ∀ piece ∈ s.pieces, esc ∉ piece
  unreturned : s.message.getLast? ≠ some '\r'
  spaceless : ∀ t ∈ s.tag, ' ' ∉ t
  shown : ∀ c ∈ s.text.head?, Dhcp.isWhitespace c = false
  unopened : s.text.head? = some '[' → connected = true

end Saying

/-- A line before it is written. -/
structure Entry where
  offset : Offset
  date : Date
  year : 0 ≤ date.year
  time : ClockTime
  level : Level
  connection : Option Connection
  saying : Saying
  wellFormed : saying.WellFormed

namespace Entry

def openingPieces (e : Entry) : List (List Char) :=
  [e.offset.text, [' '], dateText e.date.year.toNat e.date.month e.date.day, [' '], e.time.text,
    [' '], e.level.name, [' ']]

def connectionPieces (e : Entry) : List (List Char) :=
  match e.connection with
  | none => []
  | some c => [['['], c.id, [' '], c.duration, [']'], [' ']]

/-- The opening that the parser finds. -/
def opening (e : Entry) : Opening where
  offsetSecs := e.offset.secs
  date := ⟨e.date.year, e.date.month, e.date.day, ⟨e.date.isDate.1, e.date.isDate.2.1⟩,
    ⟨e.date.isDate.2.2.1, Nat.le_trans e.date.isDate.2.2.2 (monthLength_le _ _)⟩⟩
  time := e.time
  level := e.level

/-- The line with colours in every gap between its pieces, and around them. -/
def render (colours : Nat → List Colour) (e : Entry) : List Char :=
  let pieces := e.openingPieces ++ e.connectionPieces ++ e.saying.pieces
  paint colours 0 pieces ++ colourRun (colours pieces.length)

def instantUs (e : Entry) : Int :=
  (e.date.number * 86400 + e.time.hh * 3600 + e.time.mm * 60 + e.time.ss - e.offset.secs) * 1000000

/-- What the parser should find in the line. -/
def line (e : Entry) : LogLine := e.saying.line e.instantUs e.level

/-- What stands between the brackets of a connection field, colours included. -/
def connectionText (colours : Nat → List Colour) (c : Connection) : List Char :=
  paint colours 9 [c.id, [' '], c.duration] ++ colourRun (colours 12)

/-- The parser gives the line back as it was: its instant fits 64 bits, no escape sequence is still
unfinished where its connection field ends, and its saying is kept. -/
def Kept (colours : Nat → List Colour) (e : Entry) : Prop :=
  FitsI64 e.instantUs ∧ (∀ c ∈ e.connection, Scan.text.after (connectionText colours c) ≠ .params) ∧
    e.saying.Kept e.connection.isSome

theorem parseOpening_pieces (e : Entry) (fits : e.date.year ≤ i64Max) (rest : List Char) :
    parseOpening (e.openingPieces.flatten ++ rest) = some (e.opening, rest) := by
  have date : parseDate (dateText e.date.year.toNat e.date.month e.date.day) = some e.opening.date :=
    parseDate_text (c := e.opening.date) e.year fits
  have shape : e.openingPieces.flatten ++ rest =
      e.offset.text ++ ' ' :: (dateText e.date.year.toNat e.date.month e.date.day ++
        ' ' :: (e.time.text ++ ' ' :: (e.level.name ++ ' ' :: rest))) := by
    simp only [openingPieces, List.flatten_cons, List.flatten_nil, List.append_assoc,
      List.cons_append, List.nil_append]
  have blank : ' '.isDigit = false := by decide
  have offsetSpace := e.offset.notMem_text blank (by decide) (by decide)
  have dateSpace := notMem_dateText blank (by decide) e.date.year.toNat e.date.month e.date.day
  have timeSpace := e.time.notMem_text blank (by decide)
  rw [shape, parseOpening]
  simp only [StdText.splitOnce_append offsetSpace, StdText.splitOnce_append dateSpace,
    StdText.splitOnce_append timeSpace, StdText.splitOnce_append e.level.space_notMem_name,
    e.offset.parseOffset_text, date, e.time.parseTime_text, e.level.parse_name, bind,
    Option.bind_some, Option.getD_some]
  rfl

end Entry

end SingboxLog
end NetObserver
