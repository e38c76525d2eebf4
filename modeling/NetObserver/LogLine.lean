import NetObserver.IncidentId
import NetObserver.StdText

/-! One line of the proxy's log: its colours stripped, its four leading tokens, and the optional
fields in front of its message. -/

namespace NetObserver
namespace SingboxLog

open Machine

inductive Level where
  | trace
  | debug
  | info
  | warn
  | error
  | fatal
  | panic
deriving DecidableEq

namespace Level

def name : Level → List Char
  | trace => "TRACE".toList
  | debug => "DEBUG".toList
  | info => "INFO".toList
  | warn => "WARN".toList
  | error => "ERROR".toList
  | fatal => "FATAL".toList
  | panic => "PANIC".toList

def parse (token : List Char) : Option Level :=
  [trace, debug, info, warn, error, fatal, panic].find? fun level => level.name = token

def isAlert (level : Level) : Bool :=
  level == warn || level == error || level == fatal || level == panic

end Level

/-- A parsed line; its texts as their characters. -/
structure LogLine where
  tsUs : Int
  level : Level
  component : List Char
  tag : Option (List Char)
  message : List Char
deriving DecidableEq

def esc : Char := '\x1b'

def isFinal (c : Char) : Bool := '\x40' ≤ c && c ≤ '\x7e'

/-- Where a scan for escape sequences stands: in text, right behind an escape, or among the
parameters of a sequence. -/
inductive Scan where
  | text
  | escaped
  | params
deriving DecidableEq

namespace Scan

/-- What one more character leads to, and whether it is text that stays. A bare escape is dropped
on its own. -/
def step (scan : Scan) (c : Char) : Scan × Bool :=
  match scan with
  | params => (if isFinal c then text else params, false)
  | text => if c = esc then (escaped, false) else (text, true)
  | escaped =>
    if c = esc then (escaped, false)
    else if c = '[' then (params, false)
    else (text, true)

def strip : Scan → List Char → List Char
  | _, [] => []
  | scan, c :: rest =>
    let (next, stays) := scan.step c
    if stays then c :: strip next rest else strip next rest

def after (scan : Scan) (s : List Char) : Scan := s.foldl (fun scan c => (scan.step c).1) scan

end Scan

def stripAnsi (s : List Char) : List Char := Scan.text.strip s

def signOf : List Char → Option (Int × List Char)
  | '+' :: digits => some (1, digits)
  | '-' :: digits => some (-1, digits)
  | _ => none

/-- `+0300` / `-0530`, in seconds east of UTC. -/
def parseOffset (token : List Char) : Option Int := do
  let (sign, digits) ← signOf token
  if digits.length ≠ 4 ∨ ¬ digits.all Char.isDigit then none
  else
    let hh ← parseI64 (digits.take 2)
    let mm ← parseI64 (digits.drop 2)
    if hh > 23 ∨ mm > 59 then none else some (sign * (hh * 3600 + mm * 60))

/-- A day as a line's date names it: its month may be too short for it. -/
structure CivilDay where
  year : Int
  month : Nat
  day : Nat
  months : 1 ≤ month ∧ month ≤ 12
  days : 1 ≤ day ∧ day ≤ 31

structure ClockTime where
  hh : Nat
  mm : Nat
  ss : Nat
  within : hh ≤ 23 ∧ mm ≤ 59 ∧ ss ≤ 60

/-- `YYYY-MM-DD`. -/
def parseDate (token : List Char) : Option CivilDay :=
  match token.splitOn '-' with
  | [y, m, d] => do
    let y ← parseI64 y
    let m ← StdText.parseUnsigned u32Max m
    let d ← StdText.parseUnsigned u32Max d
    if months : 1 ≤ m ∧ m ≤ 12 then
      if days : 1 ≤ d ∧ d ≤ 31 then some ⟨y, m, d, months, days⟩ else none
    else none
  | _ => none

/-- `HH:MM:SS`. -/
def parseTime (token : List Char) : Option ClockTime :=
  match token.splitOn ':' with
  | [hh, mm, ss] => do
    let hh ← StdText.parseUnsigned u32Max hh
    let mm ← StdText.parseUnsigned u32Max mm
    let ss ← StdText.parseUnsigned u32Max ss
    if within : hh ≤ 23 ∧ mm ≤ 59 ∧ ss ≤ 60 then some ⟨hh, mm, ss, within⟩ else none
  | _ => none

/-- The four tokens a line opens with. -/
structure Opening where
  offsetSecs : Int
  date : CivilDay
  time : ClockTime
  level : Level

/-- The opening of a line without its end, and what is behind it. -/
def parseOpening (line : List Char) : Option (Opening × List Char) := do
  let (offset, behind) := StdText.splitOnce ' ' line
  let offsetSecs ← parseOffset offset
  let (date, behind) := StdText.splitOnce ' ' (← behind)
  let date ← parseDate date
  let (time, behind) := StdText.splitOnce ' ' (← behind)
  let time ← parseTime time
  let (level, behind) := StdText.splitOnce ' ' (← behind)
  let level ← Level.parse level
  some (⟨offsetSecs, date, time, level⟩, behind.getD [])

/-- Behind the optional connection field. -/
def skipConnection : List Char → Option (List Char)
  | '[' :: behind => (StdText.splitOnce ']' behind).2.map StdText.trimStart
  | rest => some rest

/-- The component is the first token, when it ends with a colon. -/
def parseMessage (tsUs : Int) (level : Level) (rest : List Char) : LogLine :=
  let (head, message) := StdText.splitOnce ' ' rest
  if head.getLast? = some ':' then
    let (component, tag) := StdText.splitOnce '[' head.dropLast
    ⟨tsUs, level, component,
      tag.map fun tag => if tag.getLast? = some ']' then tag.dropLast else tag, message.getD []⟩
  else ⟨tsUs, level, [], none, rest⟩

def parseBody (tsUs : Int) (level : Level) (rest : List Char) : Option LogLine :=
  (skipConnection rest).map (parseMessage tsUs level)

/-- A line's text without its colours and without its end. -/
def lineText (raw : List Char) : List Char :=
  (stripAnsi raw).rdropWhile fun c => c = '\r' || c = '\n'

section

/-! Every operation on 64-bit values passes its exact result to `fit`: a build that checks for
overflow ends there when it does not fit, a build that does not wraps it. -/

variable {M : Type → Type} [Monad M] (fit : Int → M Int)

def daysFromCivil (y : Int) (m d : Nat) : M Int := do
  let y ← (if m ≤ 2 then fit (y - 1) else pure y)
  let from_ ← (if y ≥ 0 then pure y else fit (y - 399))
  let era := from_.tdiv 400
  let yoe ← fit (y - (← fit (era * 400)))
  let mp : Int := ((m + 9) % 12 : Nat)
  let scaled ← fit ((← fit (153 * mp)) + 2)
  let doy ← fit ((← fit (scaled.tdiv 5 + d)) - 1)
  let years ← fit ((← fit ((← fit (yoe * 365)) + yoe.tdiv 4)) - yoe.tdiv 100)
  let doe ← fit (years + doy)
  fit ((← fit ((← fit (era * 146097)) + doe)) - 719468)

def Opening.tsUs (o : Opening) : M Int := do
  let days ← daysFromCivil fit o.date.year o.date.month o.date.day
  let hours ← fit ((← fit (days * 86400)) + (← fit ((o.time.hh : Int) * 3600)))
  let minutes ← fit (hours + (← fit ((o.time.mm : Int) * 60)))
  let secs ← fit ((← fit (minutes + o.time.ss)) - o.offsetSecs)
  fit (secs * 1000000)

def parseLineWith (raw : List Char) : M (Option LogLine) :=
  match parseOpening (lineText raw) with
  | none => pure none
  | some (opening, behind) => do
    let tsUs ← opening.tsUs fit
    pure (parseBody tsUs opening.level (StdText.trimStart behind))

end

/-- `none` where the operation overflows. -/
def checkedI64 (x : Int) : Option Int := if i64Min ≤ x ∧ x ≤ i64Max then some x else none

/-- The line as a build without overflow checks parses it. -/
def parseLine (raw : List Char) : Option LogLine := Id.run (parseLineWith (fun x => pure (wrapI64 x)) raw)

end SingboxLog
end NetObserver
