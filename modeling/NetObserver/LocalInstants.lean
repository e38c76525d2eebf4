import NetObserver.CivilTimes
import NetObserver.LogRendering
import NetObserver.QueryTable
import NetObserver.StreamFrames

/-! Instants as the client prints them in the local time, and moments as it reads them. -/

namespace NetObserver

open Machine StdText Calendar SingboxLog

/-- The first and the last instant that the time library holds, in nanoseconds. -/
def minInstantNs : Int := -377705023201000000000

def maxInstantNs : Int := 253402207200999999999

def IsInstant (ns : Int) : Prop := minInstantNs ≤ ns ∧ ns ≤ maxInstantNs

instance (ns : Int) : Decidable (IsInstant ns) :=
  inferInstanceAs (Decidable (minInstantNs ≤ ns ∧ ns ≤ maxInstantNs))

/-- `YYYY-MM-DD`, a negative year behind its sign. -/
def isoDate (d : Date) : List Char :=
  (if 0 ≤ d.year then padded 4 d.year.toNat else '-' :: padded 4 (-d.year).toNat) ++
    '-' :: (padded 2 d.month ++ '-' :: padded 2 d.day)

/-- `HH:MM:SS`. -/
def isoTime (t : TimeOfDay) : List Char :=
  padded 2 t.hour ++ ':' :: (padded 2 t.minute ++ ':' :: padded 2 t.second)

/-- `±HH:MM`, and the seconds where there are any. -/
def isoOffset (secs : Int) : List Char :=
  let n := secs.natAbs
  (if 0 ≤ secs then '+' else '-') :: (padded 2 (n / 3600) ++ ':' :: padded 2 (n / 60 % 60)) ++
    if n % 60 = 0 then [] else ':' :: padded 2 (n % 60)

/-- A character of a date in ISO 8601. -/
def isDateChar (c : Char) : Bool := c.isDigit || c = '-' || c = '+'

/-- A character that an offset has, and no time of day. -/
def isOffsetMark (c : Char) : Bool := "Zz+-".toList.contains c

/-- A year is four digits, or a sign and six. -/
def yearFirst (text : List Char) : Bool :=
  match text with
  | c :: rest =>
    if c = '-' || c = '+' then (rest.take 6).length = 6 && (rest.take 6).all Char.isDigit
    else (text.take 4).length = 4 && (text.take 4).all Char.isDigit
  | [] => false

/-- The time library as the client uses it, on a system whose zone is a fixed offset: its clock and
its parsers of timestamps, civil times and times of day. -/
structure LocalClock where
  offsetSecs : Int
  within : -93599 ≤ offsetSecs ∧ offsetSecs ≤ 93599
  nowNs : Int
  parseTimestamp : List Char → Option Int
  parseDateTime : List Char → Option DateTime
  parseTime : List Char → Option TimeOfDay
  /-- A timestamp has its offset behind the date. -/
  timestamp_offset : ∀ text, (parseTimestamp text).isSome →
    (text.dropWhile isDateChar).any isOffsetMark = true
  dateTime_year : ∀ text, (parseDateTime text).isSome → yearFirst text = true
  /-- A civil time to the second is read back. -/
  dateTime_iso : ∀ dt : DateTime, 0 ≤ dt.date.year → dt.date.year ≤ 9999 →
    parseDateTime (isoDate dt.date ++ 'T' :: isoTime dt.time) = some dt.toSecond

namespace LocalClock

variable (clock : LocalClock)

def offsetNs : Int := clock.offsetSecs * 1000000000

/-- The civil time of an instant. -/
def civil (ns : Int) : DateTime := .ofNanos (ns + clock.offsetNs)

/-- The instant of a civil time; none where the library does not hold it. -/
def toZoned (dt : DateTime) : Option Int :=
  if IsInstant (dt.nanos - clock.offsetNs) then some (dt.nanos - clock.offsetNs) else none

/-- `local_instant`. -/
def localInstant (tsUs : Int) : List Char :=
  if IsInstant (tsUs * 1000) then
    isoDate (clock.civil (tsUs * 1000)).date ++
      'T' :: (isoTime (clock.civil (tsUs * 1000)).time ++ isoOffset clock.offsetSecs)
  else "(timestamp out of range)".toList

def openedLocal (tsUs : Int) : List Char :=
  let iso := clock.localInstant tsUs
  match splitOnce 'T' iso with
  | (date, some rest) => if 8 ≤ rest.length then date ++ ' ' :: rest.take 8 else iso
  | (_, none) => iso

def humanizeLasted (openedUs : Int) (closedUs : Option Int) : String :=
  match closedUs with
  | none => "open"
  | some closedUs =>
    let secs := (closedUs - openedUs) / 1000000
    if secs ≤ 0 then "0 s"
    else if secs < 60 then toString secs ++ " s"
    else if secs < 3600 then
      toString (secs / 60) ++ "m " ++ String.ofList (padded 2 (secs % 60).toNat) ++ "s"
    else
      toString (secs / 3600) ++ "h " ++ String.ofList (padded 2 (secs % 3600 / 60).toNat) ++ "m"

def incidentColumns (withIds : Bool) : List String :=
  (if withIds then ["ID"] else []) ++ ["OPENED", "LASTED", "TRIGGER", "SIGNATURE"]

def incidentCells (withIds : Bool) (i : IncidentSummary) : List String :=
  (if withIds then [i.id] else []) ++ [String.ofList (clock.openedLocal i.openedUs),
    humanizeLasted i.openedUs i.closedUs, i.triggerId, i.signature]

/-- The table that `format_incidents` lays out; none where it prints that there are none. -/
def formatIncidents (rows : List IncidentSummary) (withIds : Bool) : Option QueryTable :=
  if rows.isEmpty then none
  else some ⟨incidentColumns withIds, rows.map (clock.incidentCells withIds)⟩

def padSeconds (time : List Char) : List Char :=
  if time.count ':' = 1 then time ++ ":00".toList else time

/-- Whole microseconds of an instant. -/
def asMicrosecond (ns : Int) : Int := ns.tdiv 1000

def timeForms : String :=
  "expected `now`, epoch microseconds (e.g. 1756731900000000), `YYYY-MM-DDTHH:MM[:SS]` or `YYYY-MM-DD HH:MM[:SS]` (local time), an ISO instant with an offset (`2026-09-01T14:05:00Z`), or `HH:MM[:SS]` for that time today (local)"

def unrecognizedTime (input : String) : String :=
  "unrecognized time `" ++ input ++ "`: " ++ timeForms

/-- A civil time, a time of today or neither. -/
def civilMoment (s : List Char) : Option DateTime :=
  let normalized := s.map fun c => if c = ' ' then 'T' else c
  match splitOnce 'T' normalized with
  | (date, some time) => clock.parseDateTime (date ++ 'T' :: padSeconds time)
  | (_, none) =>
    if normalized.contains ':' then
      (clock.parseTime (padSeconds normalized)).map fun t => ⟨(clock.civil clock.nowNs).date, t⟩
    else none

/-- `parse_at`. -/
def parseAt (input : String) : Except String Int :=
  let s := trim input.toList
  let bad := Except.error (unrecognizedTime input)
  if s.map Char.toLower = "now".toList then .ok (asMicrosecond clock.nowNs)
  else if !s.isEmpty && s.all Char.isDigit then (parseI64 s).elim bad .ok
  else
    match clock.parseTimestamp s with
    | some ns => .ok (asMicrosecond ns)
    | none => ((clock.civilMoment s).bind clock.toZoned).elim bad fun ns => .ok (asMicrosecond ns)

end LocalClock

theorem isDateChar_isoDate (d : Date) : ∀ c ∈ isoDate d, isDateChar c = true := by
  have digit {width n : Nat} {c : Char} (mem : c ∈ padded width n) : isDateChar c = true := by
    rw [isDateChar, isDigit_padded mem]
    rfl
  have dash : isDateChar '-' = true := rfl
  intro c mem
  unfold isoDate at mem
  simp only [List.mem_append, List.mem_cons] at mem
  rcases mem with year | rfl | month | rfl | day
  · split at year
    next => exact digit year
    next =>
      rcases List.mem_cons.mp year with rfl | year
      · exact dash
      · exact digit year
  · exact dash
  · exact digit month
  · exact dash
  · exact digit day

theorem isoTime_char (t : TimeOfDay) : ∀ c ∈ isoTime t, c.isDigit = true ∨ c = ':' := by
  intro c mem
  unfold isoTime at mem
  simp only [List.mem_append, List.mem_cons] at mem
  rcases mem with hour | rfl | minute | rfl | second
  · exact Or.inl (isDigit_padded hour)
  · exact Or.inr rfl
  · exact Or.inl (isDigit_padded minute)
  · exact Or.inr rfl
  · exact Or.inl (isDigit_padded second)

theorem length_isoTime (t : TimeOfDay) : (isoTime t).length = 8 := by
  obtain ⟨hours, minutes, seconds, _⟩ := t.within
  unfold isoTime
  simp only [List.length_append, List.length_cons]
  rw [length_padded_two (by omega), length_padded_two (by omega), length_padded_two (by omega)]

theorem count_colon_isoTime (t : TimeOfDay) : (isoTime t).count ':' = 2 := by
  have none_ (n : Nat) : (padded 2 n).count ':' = 0 :=
    List.count_eq_zero.mpr (notMem_padded (by decide))
  unfold isoTime
  simp only [List.count_append, List.count_cons, none_]
  rfl

theorem notMem_of_dateChar {d : Date} {c : Char} (other : isDateChar c = false) : c ∉ isoDate d := by
  intro mem
  rw [isDateChar_isoDate d c mem] at other
  cases other

theorem notMem_isoTime {t : TimeOfDay} {c : Char} (digit : c.isDigit = false) (colon : c ≠ ':') :
    c ∉ isoTime t := by
  intro mem
  rcases isoTime_char t c mem with one | sign
  · rw [one] at digit
    cases digit
  · exact colon sign

namespace LocalClock

variable (clock : LocalClock)

/-- The cell of an instant that the time library holds. -/
theorem openedLocal_instant {tsUs : Int} (held : IsInstant (tsUs * 1000)) :
    clock.openedLocal tsUs = isoDate (clock.civil (tsUs * 1000)).date ++
      ' ' :: isoTime (clock.civil (tsUs * 1000)).time := by
  generalize shown : clock.civil (tsUs * 1000) = dt
  have iso : clock.localInstant tsUs =
      isoDate dt.date ++ 'T' :: (isoTime dt.time ++ isoOffset clock.offsetSecs) := by
    unfold localInstant
    rw [if_pos held, shown]
  have split := splitOnce_append (c := 'T') (a := isoDate dt.date) (notMem_of_dateChar (by decide))
    (isoTime dt.time ++ isoOffset clock.offsetSecs)
  have long : 8 ≤ (isoTime dt.time ++ isoOffset clock.offsetSecs).length := by
    rw [List.length_append, length_isoTime]
    omega
  unfold openedLocal
  dsimp only
  rw [iso, split]
  dsimp only
  rw [if_pos long, List.take_append_of_le_length (by rw [length_isoTime]),
    List.take_of_length_le (by rw [length_isoTime])]

/-- The cell of any other. -/
theorem openedLocal_beyond {tsUs : Int} (beyond : ¬ IsInstant (tsUs * 1000)) :
    clock.openedLocal tsUs = "(timestamp out of range)".toList := by
  have iso : clock.localInstant tsUs = "(timestamp out of range)".toList := by
    unfold localInstant
    rw [if_neg beyond]
  unfold openedLocal
  dsimp only
  rw [iso]
  rfl

/-- A text with a blank inside and no offset is read as a civil time. -/
theorem parseAt_civil {s : List Char} (trimmed : trim s = s) (blank : ' ' ∈ s)
    (bare : (s.dropWhile isDateChar).any isOffsetMark = false) :
    clock.parseAt (String.ofList s) = ((clock.civilMoment s).bind clock.toZoned).elim
      (.error (unrecognizedTime (String.ofList s))) fun ns => .ok (asMicrosecond ns) := by
  have now : s.map Char.toLower ≠ "now".toList := by
    intro same
    have mem : ' ' ∈ s.map Char.toLower := List.mem_map.mpr ⟨' ', blank, rfl⟩
    rw [same] at mem
    revert mem
    decide
  have digits : (!s.isEmpty && s.all Char.isDigit) = false := by
    have some_ : s.all Char.isDigit = false := List.all_eq_false.mpr ⟨' ', blank, by decide⟩
    rw [some_, Bool.and_false]
  have none_ : clock.parseTimestamp s = none := by
    cases found : clock.parseTimestamp s with
    | none => rfl
    | some ns =>
      have marked := clock.timestamp_offset s (by rw [found]; rfl)
      rw [bare] at marked
      cases marked
  unfold parseAt
  rw [String.toList_ofList, trimmed]
  dsimp only
  rw [if_neg now, digits, if_neg Bool.false_ne_true, none_]

/-- The civil moment of a cell is what the parser makes of its ISO text. -/
theorem civilMoment_cell (d : Date) (t : TimeOfDay) :
    clock.civilMoment (isoDate d ++ ' ' :: isoTime t) =
      clock.parseDateTime (isoDate d ++ 'T' :: isoTime t) := by
  have same {s : List Char} (free : ' ' ∉ s) : (s.map fun c => if c = ' ' then 'T' else c) = s := by
    nth_rewrite 2 [← List.map_id s]
    apply List.map_congr_left
    intro c mem
    apply if_neg
    intro same
    rw [same] at mem
    exact free mem
  have normalized : ((isoDate d ++ ' ' :: isoTime t).map fun c => if c = ' ' then 'T' else c) =
      isoDate d ++ 'T' :: isoTime t := by
    rw [List.map_append, List.map_cons, same (notMem_of_dateChar (by decide)),
      same (notMem_isoTime (by decide) (by decide))]
    rfl
  have seconds : padSeconds (isoTime t) = isoTime t := by
    have two := count_colon_isoTime t
    unfold padSeconds
    rw [if_neg (by omega)]
  unfold civilMoment
  dsimp only
  rw [normalized, splitOnce_append (notMem_of_dateChar (by decide)) (isoTime t)]
  dsimp only
  rw [seconds]

/-- A year in front of the year 0 is not read back: its sign asks for six digits. -/
theorem yearFirst_negative {d : Date} (negative : d.year < 0) (low : -9999 ≤ d.year)
    (rest : List Char) : yearFirst (isoDate d ++ rest) = false := by
  have four : (padded 4 (-d.year).toNat).length = 4 := length_padded (by omega) (by omega)
  have dash : '-' ∈ (padded 4 (-d.year).toNat ++
      '-' :: (padded 2 d.month ++ '-' :: padded 2 d.day) ++ rest).take 6 := by
    rw [List.append_assoc, List.take_append, four]
    exact List.mem_append_right _ List.mem_cons_self
  have digits : ((padded 4 (-d.year).toNat ++
      '-' :: (padded 2 d.month ++ '-' :: padded 2 d.day) ++ rest).take 6).all Char.isDigit = false :=
    List.all_eq_false.mpr ⟨'-', dash, by decide⟩
  unfold isoDate
  rw [if_neg (by omega)]
  unfold yearFirst
  simp only [List.cons_append, decide_true, Bool.true_or, if_true, digits, Bool.and_false]

/-- The civil time of an instant is in the library's years. -/
theorem civil_year {ns : Int} (held : IsInstant ns) :
    -9999 ≤ (clock.civil ns).date.year ∧ (clock.civil ns).date.year ≤ 9999 := by
  have within := clock.within
  have first_ : (Date.first (-9999) 1 Date.january_low Date.january_high).number = -4371587 := rfl
  have behind : (Date.first 10000 1 Date.january_low Date.january_high).number = 2932897 := rfl
  have nanos : (clock.civil ns).nanos = ns + clock.offsetNs := DateTime.nanos_ofNanos _
  unfold IsInstant minInstantNs maxInstantNs at held
  unfold offsetNs at nanos
  constructor
  · apply DateTime.year_le_iff.mpr
    rw [first_, nanos]
    omega
  · by_contra later
    have le : (10000 : Int) ≤ (clock.civil ns).date.year := by omega
    rw [DateTime.year_le_iff, behind, nanos] at le
    omega

theorem trim_of_ends {s : List Char} {first last : Char} (head : s.head? = some first)
    (ends : s.getLast? = some last) (front : Dhcp.isWhitespace first = false)
    (behind : Dhcp.isWhitespace last = false) : trim s = s := by
  have begins : trimStart s = s := by
    cases s with
    | nil => rfl
    | cons c rest =>
      cases head
      exact List.dropWhile_cons_of_neg (by rw [front]; exact Bool.false_ne_true)
  unfold trim
  rw [begins]
  unfold trimEnd
  rw [List.rdropWhile_eq_self_iff]
  intro some_
  have same : s.getLast some_ = last := by
    rw [List.getLast?_eq_some_getLast some_] at ends
    exact Option.some.inj ends
  rw [same, behind]
  exact Bool.false_ne_true

/-- Every sign of a cell's ends is visible. -/
theorem plain_of_dateChar {c : Char} (date : isDateChar c = true) : Dhcp.isWhitespace c = false := by
  unfold isDateChar at date
  simp only [Bool.or_eq_true, decide_eq_true_eq] at date
  rcases date with (digit | rfl) | rfl
  · have range : c.val ≥ 48 ∧ c.val ≤ 57 := by
      unfold Char.isDigit at digit
      simpa using digit
    have low : 48 ≤ c.toNat := UInt32.le_iff_toNat_le.mp range.1
    have high : c.toNat ≤ 57 := UInt32.le_iff_toNat_le.mp range.2
    unfold Dhcp.isWhitespace
    simp only [Bool.or_eq_false_iff, Bool.and_eq_false_iff, decide_eq_false_iff_not, beq_eq_false_iff_ne]
    omega
  · rfl
  · rfl

theorem isoDate_head (d : Date) : ∃ c rest, isoDate d = c :: rest := by
  cases text : isoDate d with
  | nil =>
    have dash : '-' ∈ isoDate d := List.mem_append_right _ List.mem_cons_self
    rw [text] at dash
    cases dash
  | cons c rest => exact ⟨c, rest, rfl⟩

/-- A cell has nothing to trim. -/
theorem trim_cell (d : Date) (t : TimeOfDay) :
    trim (isoDate d ++ ' ' :: isoTime t) = isoDate d ++ ' ' :: isoTime t := by
  obtain ⟨c, rest, begins⟩ := isoDate_head d
  have first_ : isDateChar c = true := isDateChar_isoDate d c (by rw [begins]; exact List.mem_cons_self)
  have last_ : isDateChar ((padded 2 t.second).getLast (padded_ne_nil 2 t.second)) = true := by
    rw [isDateChar, isDigit_padded (List.getLast_mem _)]
    rfl
  have ends : (isoDate d ++ ' ' :: isoTime t).getLast? =
      some ((padded 2 t.second).getLast (padded_ne_nil 2 t.second)) := by
    have split : isoDate d ++ ' ' :: isoTime t = (isoDate d ++ ' ' :: (padded 2 t.hour ++
        ':' :: (padded 2 t.minute ++ [':']))) ++ padded 2 t.second := by
      unfold isoTime
      simp only [List.append_assoc, List.cons_append, List.nil_append]
    rw [split, List.getLast?_append_of_ne_nil _ (padded_ne_nil 2 t.second),
      List.getLast?_eq_some_getLast]
  have head : (isoDate d ++ ' ' :: isoTime t).head? = some c := by
    rw [begins]
    rfl
  exact trim_of_ends head ends (plain_of_dateChar first_) (plain_of_dateChar last_)

/-- Behind the date of a cell stands no offset. -/
theorem cell_bare (d : Date) (t : TimeOfDay) :
    ((isoDate d ++ ' ' :: isoTime t).dropWhile isDateChar).any isOffsetMark = false := by
  have behind : (isoDate d ++ ' ' :: isoTime t).dropWhile isDateChar = ' ' :: isoTime t := by
    rw [List.dropWhile_append_of_pos (isDateChar_isoDate d)]
    rfl
  rw [behind, List.any_cons, Bool.or_eq_false_iff]
  refine ⟨rfl, List.any_eq_false.mpr ?_⟩
  intro c mem marked
  rcases isoTime_char t c mem with digit | rfl
  · have signs : ("Zz+-".toList.all fun d => !d.isDigit) = true := rfl
    have one := List.all_eq_true.mp signs c (List.contains_iff_mem.mp marked)
    rw [digit] at one
    cases one
  · cases marked

/-- What `parse_at` makes of the cell of an instant: its whole second, unless the year is negative. -/
theorem parseAt_opened {tsUs : Int} (held : IsInstant (tsUs * 1000)) :
    (clock.parseAt (String.ofList (clock.openedLocal tsUs))).toOption =
      if 0 ≤ (clock.civil (tsUs * 1000)).date.year ∧
        IsInstant ((tsUs - tsUs % 1000000) * 1000) then some (tsUs - tsUs % 1000000) else none := by
  obtain ⟨low, high⟩ := clock.civil_year held
  have second : (clock.civil (tsUs * 1000)).toSecond.nanos - clock.offsetNs =
      (tsUs - tsUs % 1000000) * 1000 := by
    have cut := DateTime.nanos_toSecond_ofNanos (tsUs * 1000 + clock.offsetNs)
    change (clock.civil (tsUs * 1000)).toSecond.nanos = _ at cut
    rw [cut]
    unfold offsetNs
    omega
  rw [clock.openedLocal_instant held]
  generalize clock.civil (tsUs * 1000) = dt at *
  rw [clock.parseAt_civil (trim_cell _ _) (List.mem_append_right _ List.mem_cons_self)
    (cell_bare _ _), clock.civilMoment_cell]
  by_cases year : 0 ≤ dt.date.year
  · have micro : asMicrosecond ((tsUs - tsUs % 1000000) * 1000) = tsUs - tsUs % 1000000 :=
      Int.mul_tdiv_cancel _ (by decide)
    rw [clock.dateTime_iso dt year high, Option.bind_some]
    unfold toZoned
    rw [second]
    by_cases whole : IsInstant ((tsUs - tsUs % 1000000) * 1000)
    · rw [if_pos whole, if_pos ⟨year, whole⟩, Option.elim_some, micro]
      rfl
    · rw [if_neg whole, if_neg fun both => whole both.2]
      rfl
  · have none_ : clock.parseDateTime (isoDate dt.date ++ 'T' :: isoTime dt.time) = none := by
      cases found : clock.parseDateTime (isoDate dt.date ++ 'T' :: isoTime dt.time) with
      | none => rfl
      | some read =>
        have first_ := clock.dateTime_year _ (by rw [found]; rfl)
        rw [yearFirst_negative (by omega) low] at first_
        cases first_
    rw [none_, if_neg fun both => year both.1]
    rfl

theorem parseAt_beyond {tsUs : Int} (beyond : ¬ IsInstant (tsUs * 1000)) :
    (clock.parseAt (String.ofList (clock.openedLocal tsUs))).toOption = none := by
  have bare : ("(timestamp out of range)".toList.dropWhile isDateChar).any isOffsetMark = false := rfl
  have trimmed : trim "(timestamp out of range)".toList = "(timestamp out of range)".toList := rfl
  have none_ : clock.civilMoment "(timestamp out of range)".toList = none := by
    have read : clock.civilMoment "(timestamp out of range)".toList =
        clock.parseDateTime "(timestampToutTofTrange)".toList := rfl
    rw [read]
    cases found : clock.parseDateTime "(timestampToutTofTrange)".toList with
    | none => rfl
    | some dt =>
      have year := clock.dateTime_year _ (by rw [found]; rfl)
      cases year
  rw [clock.openedLocal_beyond beyond, clock.parseAt_civil trimmed (by decide) bare, none_]
  rfl

/-- The cell of an instant is read as nothing but its whole second. -/
theorem parseAt_opened_iff {tsUs t : Int} :
    clock.parseAt (String.ofList (clock.openedLocal tsUs)) = .ok t ↔
      IsInstant (tsUs * 1000) ∧ 0 ≤ (clock.civil (tsUs * 1000)).date.year ∧
        IsInstant ((tsUs - tsUs % 1000000) * 1000) ∧ t = tsUs - tsUs % 1000000 := by
  constructor
  · intro parsed
    have read : (clock.parseAt (String.ofList (clock.openedLocal tsUs))).toOption = some t := by
      rw [parsed]
      rfl
    have held : IsInstant (tsUs * 1000) := by
      by_contra beyond
      rw [clock.parseAt_beyond beyond] at read
      cases read
    rw [clock.parseAt_opened held] at read
    split at read
    next told => exact ⟨held, told.1, told.2, (Option.some.inj read).symm⟩
    next => cases read
  · intro ⟨held, year, second, same⟩
    have read := clock.parseAt_opened held
    rw [if_pos ⟨year, second⟩, ← same] at read
    cases parsed : clock.parseAt (String.ofList (clock.openedLocal tsUs)) with
    | error e =>
      rw [parsed] at read
      cases read
    | ok found =>
      rw [parsed] at read
      cases read
      rfl

end LocalClock

end NetObserver
